import Rimz.Presence.Observation

/-!
# Client observations in a run of the engine

Answers to `list_clients` come in the order of the queries, each at most once and as late as Zellij
likes. A run keeps a history of the queries without an answer, of the answer behind the client
sample, of the last change of the panes and their tabs, and of the switches confirmed. Every
topology with a client sample and every confirmed switch is measured against it.

Two things can go wrong. A late answer makes the synchronizer drop its query in flight without
expecting its answer, which is then taken for that of the next query. And the first manifest does
not put in doubt the answer to a query that was sent before it.
-/

namespace Rimz.Presence
open Rimz.Lib Std

/-- A callback has run: its queries are out, and the roster it leaves may be another. -/
def History.after (h : History) (now : Nat) (before after : RoomState) (effects : List Effect) :
    History :=
  let moment := (h.moment.1 + 1, now)
  { moment
    waiting := h.waiting ++ (effects.filter (· = .listClients)).map fun _ => moment
    source := h.source
    changed := if after.placed.toList = before.placed.toList then h.changed else some moment
    settled := h.settled ++ (effects.filterMap Effect.settles).map (·.generation) }

/-- The engine with the history of a run. -/
structure Observed where
  engine : Engine
  history : History

/-- A call. If it is an answer, the answers to `lost` earlier queries never come. -/
structure Turn extends Call where
  lost : Nat := 0

def Observed.effects (w : Observed) (c : Turn) : List Effect :=
  (w.engine.on c.now c.host c.callback).2

def Observed.after (w : Observed) (c : Turn) (h : History) : Observed :=
  { engine := (w.engine.on c.now c.host c.callback).1
    history := h.after c.now w.engine.room (w.engine.on c.now c.host c.callback).1.room
      (w.effects c) }

inductive Observes (w : Observed) (c : Turn) : Observed → Prop where
  | call (notAnswer : ∀ clients, c.callback ≠ .listClients clients)
      (clock : w.history.moment.2 ≤ c.now) : Observes w c (w.after c w.history)
  | answer {clients : List ClientViewEntry} {q : Moment} {rest : List Moment}
      (answer : c.callback = .listClients clients) (clock : w.history.moment.2 ≤ c.now)
      (waiting : w.history.waiting.drop c.lost = q :: rest) :
      Observes w c (w.after c (w.history.answer q rest clients))

/-- A new engine, which has asked nothing. -/
def Fresh (w : Observed) : Prop :=
  ∃ now config, w = { engine := Engine.new now config, history := { moment := (0, now) } }

/-- An answer that finds no late answer expected and a query in flight is that of the last query
sent; the first manifest, if there is no sample yet, finds no query without its answer; and no tab
update wraps the counter of switches. -/
def Attributable (w : Observed) (c : Turn) : Prop :=
  w.engine.Counts c.callback ∧ match c.callback with
  | .listClients _ =>
    (w.engine.focus.expireQuery c.now).TakesLast (w.history.waiting.drop c.lost).tail
  | .paneManifest _ _ =>
    w.engine.room.hasManifest = true ∨ w.engine.focus.clientSample.isSome = true ∨
      w.history.waiting = []
  | _ => True

/-- An answer comes within the minute of its query. -/
def Timely (w : Observed) (c : Turn) : Prop :=
  match c.callback with
  | .listClients _ => ∀ q ∈ (w.history.waiting.drop c.lost).head?, c.now < q.2 + keepaliveMs
  | _ => Attributable w c

/-- What a callback that may change the roster sends before it does: the poke of a new
permission. -/
def Observed.granting (w : Observed) (c : Turn) : List Effect :=
  match c.callback with
  | .paneManifest _ _ | .paneClosed _ => (w.engine.markGranted c.now c.host).2
  | _ => []

/-- Every client observation of a callback is from after what it confirms. -/
structure Attributed (w : Observed) (c : Turn) (w' : Observed) : Prop where
  settled : ∀ b ∈ w.effects c, ∀ s, b.settles = some s → ∃ p a,
    w.engine.focus.mode = .switching p ∧ w'.history.source = some a ∧
    s = { tab := p.tab, generation := w.engine.focus.generation, clients := a.clients } ∧
    w.engine.focus.activeTab = some s.tab ∧ p.settleAt ≤ a.asked.2
  once : w'.history.settled.Nodup
  published : ∃ late, w.effects c = w.granting c ++ late ∧
    (∀ b ∈ w.granting c, w.history.Fresh b) ∧ ∀ b ∈ late, w'.history.Fresh b

/-! ## Changes of the roster -/

section Roster
variable {T : Prop} {h : History} {e : Engine} {now : Nat} {host : Host}

/-- The last change of the roster, when a room may have become another. -/
def History.rosterAfter (h : History) (before after : RoomState) : Option Moment :=
  if after.placed.toList = before.placed.toList then h.changed else some h.moment

lemma rosterAfter_same {before after} (hplaced : after.placed = before.placed) :
    h.rosterAfter before after = h.changed := by
  rw [History.rosterAfter, hplaced, if_pos rfl]

lemma rosterAfter_le {before after} (hs : Sound T h e.focus) :
    ∀ m, h.rosterAfter before after = some m → m ≤ h.moment := by
  intro m hm
  unfold History.rosterAfter at hm
  split at hm
  · exact hs.changed m hm
  · cases hm
    exact le_rfl

lemma markGranted_room : (e.markGranted now host).1.room = e.room := by
  unfold Engine.markGranted
  split
  · simp
  · dsimp only [andThen]
    split <;> simp [Engine.requestGeneralObservation]

lemma markGranted_clientSample :
    (e.markGranted now host).1.focus.clientSample = e.focus.clientSample := by
  unfold Engine.markGranted
  split
  · simp
  · dsimp only [andThen]
    split <;> simp [Engine.requestGeneralObservation, FocusSync.requestGeneralObservation]

/-- A manifest that changes the roster puts the sample in doubt; the first one does not, but then
nothing is known of the clients or asked. -/
lemma Sound.foldManifest {rawHash project} (hs : Sound T h e.focus)
    (hbase : e.room.hasManifest = true ∨ e.focus.clientSample.isSome = true ∨ h.waiting = []) :
    Sound T { h with changed := h.rosterAfter e.room (e.foldManifest rawHash project now host).room }
      (e.foldManifest rawHash project now host).focus := by
  have unchanged : ∀ {room : RoomState}, room.placed = e.room.placed →
      Sound T { h with changed := h.rosterAfter e.room room } e.focus := by
    intro room hplaced
    rw [rosterAfter_same hplaced]
    exact hs
  have applied : ∀ room : RoomState, Sound T { h with changed := h.rosterAfter e.room room }
      (if e.invalidatesSample room then e.focus.invalidateClientSample now else e.focus) := by
    intro room
    split
    · exact hs.invalidateClientSample (rosterAfter_le hs)
    rename_i hvalid
    simp only [Engine.invalidatesSample, and_eq_true, decide_eq_true_eq, not_and_or,
      not_not, or_eq_true] at hvalid
    rcases hvalid with hroster | hfirst
    · exact unchanged (RoomState.placed_eq_of_roster_eq hroster.symm)
    by_cases hplaced : room.placed.toList = e.room.placed.toList
    · rw [History.rosterAfter, if_pos hplaced]
      exact hs
    rw [History.rosterAfter, if_neg hplaced]
    -- nothing has been heard of the clients, so no answer is the source of a sample
    have hsource : h.source = none := by
      have hsample := hs.sample
      cases hsrc : h.source with
      | none => rfl
      | some a =>
        rw [hsrc] at hsample
        exact absurd (by simp [hsample]) (not_or.mp hfirst).2
    rcases hbase with hmanifest | hsample | hwaiting
    · exact absurd hmanifest (not_or.mp hfirst).1
    · exact absurd hsample (not_or.mp hfirst).2
    · exact hs.baseline hsource hwaiting
  unfold Engine.foldManifest
  dsimp only
  split
  · exact unchanged rfl
  · split
    · simpa using applied _
    · exact applied _

lemma Sound.foldClosed {pane} (hs : Sound T h e.focus) :
    Sound T { h with changed := h.rosterAfter e.room (e.foldClosed pane now).room }
      (e.foldClosed pane now).focus := by
  unfold Engine.foldClosed
  dsimp only
  split
  · simpa using hs.invalidateClientSample (rosterAfter_le hs)
  rename_i hunknown
  have same : (e.room.closePane pane).1.placed = e.room.placed := by
    apply ExtTreeMap.ext_getElem?
    intro key
    rw [RoomState.getElem?_placed, RoomState.getElem?_placed, RoomState.closePane,
      ExtTreeMap.getElem?_erase]
    split
    · next hkey =>
      obtain rfl := LawfulEqCmp.eq_of_compare hkey
      have hnone : e.room.panes[pane.key]? = none := by
        simpa [RoomState.closePane] using hunknown
      rw [hnone]
    · rfl
  rw [rosterAfter_same same]
  exact hs

end Roster

/-! ## Steps and runs -/

section Steps
variable {T : Prop} {h : History} {now : Nat} {before after : RoomState} {effects : List Effect}

lemma after_eq {asks : Bool}
    (hasked : effects.filter (· = .listClients) = if asks then [.listClients] else []) :
    h.after now before after effects =
      History.sends { h with
        moment := (h.moment.1 + 1, now)
        changed := History.rosterAfter { h with moment := (h.moment.1 + 1, now) } before after
        settled := h.settled ++ (effects.filterMap Effect.settles).map (·.generation) } asks := by
  simp only [History.after, hasked, History.sends, History.rosterAfter]
  cases asks <;> rfl

variable {w w' : Observed} {c : Turn}

/-- The history at the moment of a call. -/
def Observed.at (w : Observed) (c : Turn) : History :=
  { w.history with moment := (w.history.moment.1 + 1, c.now) }

/-- An answer in time is that of the last query: the next would have gone out behind its minute. -/
lemma Sound.last (hs : Sound True w.history w.engine.focus) (hclock : w.history.moment.2 ≤ c.now)
    (timely : ∀ q ∈ (w.history.waiting.drop c.lost).head?, c.now < q.2 + keepaliveMs) :
    (w.history.waiting.drop c.lost).tail = [] := by
  cases hd : w.history.waiting.drop c.lost with
  | nil => rfl
  | cons q rest =>
    have sub : (q :: rest).Sublist w.history.waiting := hd ▸ List.drop_sublist _ _
    refine List.eq_nil_iff_forall_not_mem.mpr fun r hr => ?_
    have behind : q.2 + keepaliveMs ≤ r.2 :=
      (pairwise_cons.mp ((hs.apart trivial).sublist sub)).1 r hr
    have past : r.2 ≤ w.history.moment.2 := (hs.past r (sub.subset (mem_cons_of_mem _ hr))).2
    have late := timely q (by simp [hd])
    omega

/-- A step that leaves a sound history, and what it tells is attributed. -/
def Tells (T : Prop) (w : Observed) (c : Turn) (w' : Observed) : Prop :=
  Sound T w'.history w'.engine.focus ∧ Attributed w c w'

/-- A call whose effects are those of a new permission, and then those of a callback that ends. -/
lemma step_of_parts {r : Engine × List Effect}
    (hon : w.engine.on c.now c.host c.callback = (r.1, w.granting c ++ r.2))
    (hearly : ∀ b ∈ w.granting c, b.Tame (w.at c))
    (hlate : Ends T { w.at c with changed := (w.at c).rosterAfter w.engine.room r.1.room } r.1.room r) :
    Tells T w c (w.after c w.history) := by
  obtain ⟨asks, hc⟩ := hlate
  have heffects : w.effects c = w.granting c ++ r.2 := by rw [Observed.effects, hon]
  have hasked : (w.effects c).filter (· = .listClients) = if asks then [.listClients] else [] := by
    rw [heffects, filter_append, filter_asks fun b hb => (hearly b hb).asks, nil_append, hc.asked]
  have hsettles : ∀ b ∈ w.effects c, b.settles = none := by
    intro b hb
    rcases mem_append.mp (heffects ▸ hb) with hb | hb
    · exact (hearly b hb).settles
    · exact hc.settles b hb
  have hnone : (w.effects c).filterMap Effect.settles = [] := List.filterMap_eq_nil_iff.mpr hsettles
  have hhistory : (w.after c w.history).history =
      History.sends { w.at c with changed := (w.at c).rosterAfter w.engine.room r.1.room } asks := by
    simp only [Observed.after, after_eq hasked, hnone, hon, map_nil, append_nil]
    rfl
  have hfocus : (w.after c w.history).engine.focus = r.1.focus := by
    simp only [Observed.after, hon]
  rw [Tells, hfocus, hhistory]
  refine ⟨hc.sound, ⟨fun b hb s hsome => ?_, ?_, r.2, heffects, fun b hb => (hearly b hb).fresh, ?_⟩⟩
  · rw [hsettles b hb] at hsome
    cases hsome
  · rw [hhistory]
    exact hc.sound.once
  · rw [hhistory]
    exact hc.fresh

section
variable (hs : Sound T w.history w.engine.focus) (hclock : w.history.moment.2 ≤ c.now)
include hs hclock

lemma Sound.at : Sound T (w.at c) w.engine.focus :=
  hs.later ⟨Nat.le_succ _, hclock⟩

lemma ordinary_step (hc : c.callback.Ordinary) (hcounts : w.engine.Counts c.callback) :
    Tells T w c (w.after c w.history) := by
  have hgranting : w.granting c = [] := by
    unfold Observed.granting
    cases hcall : c.callback <;> simp_all [Callback.Ordinary]
  obtain ⟨asks, closes⟩ : Ends T (w.at c) w.engine.room (w.engine.on c.now c.host c.callback) :=
    Phase.on ⟨hs.at hclock, rfl⟩ rfl hc hcounts
  apply step_of_parts (r := w.engine.on c.now c.host c.callback)
  · rw [hgranting]
    rfl
  · rw [hgranting]
    exact fun b hb => by cases hb
  · refine ⟨asks, ?_⟩
    rw [rosterAfter_same closes.placed]
    exact { closes with placed := rfl }

/-- A call that folds its event into the room behind a permission, and ends. -/
lemma folding_step (room : RoomState) {f : Engine → Engine × List Effect}
    (hgranting : w.granting c = (w.engine.markGranted c.now c.host).2)
    (hon : w.engine.on c.now c.host c.callback = andThen (w.engine.markGranted c.now c.host) f)
    (hf : Phase T (w.at c) w.engine.room (w.engine.markGranted c.now c.host).1 →
      Ends T { w.at c with changed := (w.at c).rosterAfter w.engine.room room } room
        (f (w.engine.markGranted c.now c.host).1)) :
    Tells T w c (w.after c w.history) := by
  have granted : Emits (Phase T (w.at c) w.engine.room) (Effect.Tame (w.at c))
      (w.engine.markGranted c.now c.host) := Phase.markGranted ⟨hs.at hclock, rfl⟩
  obtain ⟨asks, closes⟩ := hf granted.state
  apply step_of_parts (r := f (w.engine.markGranted c.now c.host).1)
  · rw [hon, hgranting, andThen]
  · rw [hgranting]
    exact granted.outputs
  · refine ⟨asks, ?_⟩
    have same : (w.at c).rosterAfter w.engine.room (f (w.engine.markGranted c.now c.host).1).1.room =
        (w.at c).rosterAfter w.engine.room room := by
      rw [History.rosterAfter, History.rosterAfter, closes.placed]
    rw [same]
    exact { closes with placed := rfl }

lemma manifest_step {rawHash project} (hcall : c.callback = .paneManifest rawHash project)
    (ha : Attributable w c) : Tells T w c (w.after c w.history) := by
  generalize hgranted : (w.engine.markGranted c.now c.host).1 = e1
  have hroom : e1.room = w.engine.room := hgranted ▸ markGranted_room
  have hsample : e1.focus.clientSample = w.engine.focus.clientSample :=
    hgranted ▸ markGranted_clientSample
  refine folding_step hs hclock
    (e1.requestGeneralObservation.foldManifest rawHash project c.now c.host).room
    ?_ ?_ ?_ (f := fun e =>
      let e := e.requestGeneralObservation.foldManifest rawHash project c.now c.host
      andThen (e, if e.ownPaneShows then [.hideSelf] else []) fun e => e.finishUpdate c.now c.host)
  · rw [Observed.granting, hcall]
  · rw [hcall]
    rfl
  · rw [hgranted]
    intro phase
    have observed : Phase T (w.at c) w.engine.room e1.requestGeneralObservation :=
      phase.requestGeneralObservation
    have hbase : e1.requestGeneralObservation.room.hasManifest = true ∨
        e1.requestGeneralObservation.focus.clientSample.isSome = true ∨ (w.at c).waiting = [] := by
      have hfirst : w.engine.room.hasManifest = true ∨
          w.engine.focus.clientSample.isSome = true ∨ w.history.waiting = [] := by
        simpa [hcall] using ha.2
      rcases hfirst with h | h | h
      · exact .inl (hroom ▸ h)
      · exact .inr (.inl (hsample ▸ h))
      · exact .inr (.inr h)
    have folded : Sound T { w.at c with
        changed := (w.at c).rosterAfter e1.requestGeneralObservation.room
          (e1.requestGeneralObservation.foldManifest rawHash project c.now c.host).room }
        (e1.requestGeneralObservation.foldManifest rawHash project c.now c.host).focus :=
      observed.sound.foldManifest hbase
    rw [show e1.requestGeneralObservation.room = w.engine.room from hroom] at folded
    refine Ends.andThen (Emits.all (P := Phase T _ _) ⟨folded, rfl⟩ fun b hb => ?_) ?_
    · split at hb
      · rw [mem_singleton.mp hb]
        exact hideSelf_tame
      · cases hb
    · intro e hp
      exact hp.finishUpdate rfl

lemma closed_step {pane} (hcall : c.callback = .paneClosed pane) :
    Tells T w c (w.after c w.history) := by
  generalize hgranted : (w.engine.markGranted c.now c.host).1 = e1
  have hroom : e1.room = w.engine.room := hgranted ▸ markGranted_room
  refine folding_step hs hclock (e1.foldClosed pane c.now).room ?_ ?_ ?_ (f := fun e =>
    (e.foldClosed pane c.now).finishUpdate c.now c.host)
  · rw [Observed.granting, hcall]
  · rw [hcall]
    rfl
  · rw [hgranted]
    intro phase
    have folded : Sound T { w.at c with
        changed := (w.at c).rosterAfter e1.room (e1.foldClosed pane c.now).room }
        (e1.foldClosed pane c.now).focus := phase.sound.foldClosed
    rw [hroom] at folded
    apply Phase.finishUpdate _ rfl
    exact ⟨folded, rfl⟩

end

/-! ### Answers -/

lemma runWake_settles {e : Engine} {host s} :
    (e.runWake (.switchSettled s.tab s.generation s.clients) now host).filterMap Effect.settles =
    [] ∨
      (e.runWake (.switchSettled s.tab s.generation s.clients) now host).filterMap Effect.settles =
        [s] := by
  unfold Engine.runWake
  split
  · exact .inl rfl
  split
  · exact .inl rfl
  rename_i wake hwake
  right
  simp only [filterMap_cons, List.filterMap_nil, Effect.settles, (wakeArgv_eq hwake).1,
    WakeRequest.settles]

lemma answer_step {clients : List ClientViewEntry} {q rest} (hs : Sound T w.history w.engine.focus)
    (hclock : w.history.moment.2 ≤ c.now) (hcall : c.callback = .listClients clients)
    (hwaiting : w.history.waiting.drop c.lost = q :: rest) (ha : Attributable w c)
    (ht : T → rest = []) : Tells T w c (w.after c (w.history.answer q rest clients)) := by
  have hlast : (w.engine.focus.expireQuery c.now).TakesLast rest := by
    simpa [hcall, hwaiting] using ha.2
  obtain ⟨confirms, sound⟩ := (hs.at hclock).acceptClientSample clients c.now le_rfl hwaiting hlast ht
  generalize haccepted : w.engine.focus.acceptClientSample clients c.now = accepted at confirms sound
  have hconfirmed : w.engine.focus.confirmedBy clients c.now = accepted.2.settled := by
    rw [FocusSync.confirmedBy, haccepted]
  rw [hconfirmed] at confirms sound
  let e : Engine := { w.engine with focus := accepted.1 }
  let e' : Engine := if accepted.2.sampleChanged then e.signalChange c.now else e
  let told : List Effect := accepted.2.settled.elim [] fun s =>
    e.runWake (.switchSettled s.tab s.generation s.clients) c.now c.host
  have hon : w.engine.on c.now c.host c.callback =
      andThen (e', told) fun e => e.finishUpdate c.now c.host := by
    rw [hcall]
    show w.engine.onListClients clients c.now c.host = _
    simp only [Engine.onListClients, haccepted, told]
    cases accepted.2.settled <;> rfl
  have heffects : w.effects c = told ++ (e'.finishUpdate c.now c.host).2 := by
    rw [Observed.effects, hon, andThen]
  -- what the wake says is what was confirmed
  have hfresh : Sound T ((w.at c).answer q rest clients) accepted.1 := sound _ (.inl rfl)
  have htold : ∀ b ∈ told, History.Fresh ((w.at c).answer q rest clients) b ∧
      (∀ s, b.settles = some s → accepted.2.settled = some s) ∧ b ≠ .listClients := by
    intro b hb
    cases hsome : accepted.2.settled with
    | none =>
      simp only [told, hsome] at hb
      cases hb
    | some s =>
      simp only [told, hsome] at hb
      obtain ⟨fresh, settles, asks⟩ := runWake_fresh (e := e) hfresh b hb
      exact ⟨fresh, fun s' hs' => settles.symm.trans hs', asks⟩
  have honce : told.filterMap Effect.settles = [] ∨
      ∃ s, accepted.2.settled = some s ∧ told.filterMap Effect.settles = [s] := by
    cases hsome : accepted.2.settled with
    | none => exact .inl (by simp only [told, hsome, Option.elim_none, List.filterMap_nil])
    | some s =>
      simp only [told, hsome, Option.elim_some, Option.some.injEq, exists_eq_left']
      exact runWake_settles
  have hnoted : Sound T { (w.at c).answer q rest clients with
      settled := w.history.settled ++ (told.filterMap Effect.settles).map (·.generation) }
      accepted.1 := by
    apply sound
    rcases honce with hnone | ⟨s, hsome, hone⟩
    · left
      rw [hnone]
      exact append_nil _
    · exact .inr ⟨s, hsome, by rw [hone]; rfl⟩
  let noted : History := { (w.at c).answer q rest clients with
    settled := w.history.settled ++ (told.filterMap Effect.settles).map (·.generation) }
  have phase : Phase T noted w.engine.room e' := by
    have base : Phase T noted w.engine.room e := ⟨hnoted, rfl⟩
    simp only [e']
    split
    · exact base.signalChange
    · exact base
  obtain ⟨asks, closes⟩ : Ends T noted w.engine.room (e'.finishUpdate c.now c.host) :=
    phase.finishUpdate rfl
  have hasked : (w.effects c).filter (· = .listClients) = if asks then [.listClients] else [] := by
    rw [heffects, filter_append, filter_asks fun b hb => (htold b hb).2.2, nil_append, closes.asked]
  have hsettles : (w.effects c).filterMap Effect.settles = told.filterMap Effect.settles := by
    rw [heffects, filterMap_append, List.filterMap_eq_nil_iff.mpr closes.settles,
      append_nil]
  have hhistory : (w.after c (w.history.answer q rest clients)).history = noted.sends asks := by
    have same : (w.engine.on c.now c.host c.callback).1.room.placed = w.engine.room.placed := by
      rw [hon]
      exact closes.placed
    simp only [Observed.after, after_eq hasked, hsettles, rosterAfter_same same]
    rfl
  have hfocus : (w.after c (w.history.answer q rest clients)).engine.focus =
      (e'.finishUpdate c.now c.host).1.focus := by
    simp only [Observed.after, hon, andThen]
  refine ⟨by rw [hfocus, hhistory]; exact closes.sound, ⟨fun b hb s hsome => ?_, ?_, ?_⟩⟩
  · have hb : b ∈ told := by
      rcases mem_append.mp (heffects ▸ hb) with hb | hb
      · exact hb
      · rw [closes.settles b hb] at hsome
        cases hsome
    obtain ⟨p, hmode, rfl, hactive, hsettle⟩ := confirms s ((htold b hb).2.1 s hsome)
    refine ⟨p, { asked := q, clients }, hmode, by rw [hhistory]; rfl, ?_, hactive, hsettle⟩
    rw [(hs.wf.pending p hmode).1]
  · rw [hhistory]
    exact closes.sound.once
  · refine ⟨w.effects c, by rw [Observed.granting, hcall]; rfl, ?_, ?_⟩
    · rw [Observed.granting, hcall]
      exact fun b hb => by cases hb
    · intro b hb
      rw [hhistory]
      rcases mem_append.mp (heffects ▸ hb) with hb | hb
      · exact (htold b hb).1
      · exact closes.fresh b hb

lemma tells_step (hs : Sound T w.history w.engine.focus) (ho : Observes w c w')
    (ha : Attributable w c)
    (ht : T → ∀ clients, c.callback = .listClients clients →
      (w.history.waiting.drop c.lost).tail = []) : Tells T w c w' := by
  cases ho with
  | answer answer clock waiting =>
    refine answer_step hs clock answer waiting ha fun t => ?_
    simpa [waiting] using ht t _ answer
  | call notAnswer clock =>
    cases hcall : c.callback with
    | listClients clients => exact absurd hcall (notAnswer clients)
    | paneManifest rawHash project => exact manifest_step hs clock hcall ha
    | paneClosed pane => exact closed_step hs clock hcall
    | _ => exact ordinary_step hs clock (by rw [hcall]; trivial) ha.1

lemma timely_step (hs : Sound True w.history w.engine.focus) (ho : Observes w c w')
    (ht : Timely w c) : Tells True w c w' := by
  have clock : w.history.moment.2 ≤ c.now := by cases ho <;> assumption
  unfold Timely at ht
  split at ht
  · next hcall =>
    have last := hs.last clock ht
    refine tells_step hs ho ?_ fun _ _ _ => last
    rw [Attributable, hcall]
    exact ⟨trivial, fun _ _ => last⟩
  · next notAnswer => exact tells_step hs ho ht fun _ _ hcall => absurd hcall (notAnswer _)

lemma sound_of_fresh (hw : Fresh w) : Sound T w.history w.engine.focus := by
  obtain ⟨now, config, rfl⟩ := hw
  exact {
    wf := ⟨nofun, nofun, nofun⟩
    ordered := List.Pairwise.nil
    past := nofun
    answered := nofun
    changed := nofun
    sample := rfl
    queued := nofun
    inFlight := nofun
    fresh := nofun
    once := nodup_nil
    settled := nofun
    apart := fun _ => List.Pairwise.nil
    expired := fun _ => nofun }

end Steps

/-- **Client observations are attributed to queries issued after what they confirm.** In every run
whose steps are all attributable: a wake for a settled switch carries the answer to a query sent
after the switch had settled, tells each generation at most once and only while it is that of the
active tab; and a topology with a client sample carries the answer to a query sent after the last
change of the roster. -/
theorem observations_attributed {w w' : Observed} {c : Turn}
    (h : Reachable Fresh (fun w c w' => Observes w c w' ∧ Attributable w c) w)
    (ho : Observes w c w') (ha : Attributable w c) : Attributed w c w' := by
  have sound : Sound False w.history w.engine.focus := by
    refine Reachable.invariant (P := fun w => Sound False w.history w.engine.focus)
      (fun _ hw => sound_of_fresh hw) ?_ h
    rintro w c w' _ sound ⟨step, attributable⟩
    exact (tells_step sound step attributable nofun).1
  exact (tells_step sound ho ha nofun).2

/-- No more is asked of the answers of a run than that each comes within the minute of its query. -/
theorem timely_observations_attributed {w w' : Observed} {c : Turn}
    (h : Reachable Fresh (fun w c w' => Observes w c w' ∧ Timely w c) w) (ho : Observes w c w')
    (ht : Timely w c) : Attributed w c w' := by
  have sound : Sound True w.history w.engine.focus :=
    Reachable.invariant (P := fun w => Sound True w.history w.engine.focus)
      (fun _ hw => sound_of_fresh hw) (fun _ _ _ _ sound step => (timely_step sound step.1 step.2).1) h
  exact (timely_step sound ho ht).2

/-- The first manifest: two terminals in one tab. -/
def twoTerminals : Callback :=
  let panes : List PaneFields := [1, 2].map fun id => { id, isPlugin := false, tabPosition := 0 }
  .paneManifest 1 fun _ => .ofList [(0, panes)]

/-- Where a client was before the second terminal was closed. -/
def atSecond : List ClientViewEntry := [{ clientId := 1, paneId := .terminal 2 }]

def newRoom : Observed :=
  { engine := Engine.new 0 { sessionName := some "room" }, history := { moment := (0, 0) } }

def calling (callback : Callback) (now : Nat) : Turn :=
  ⟨⟨callback, now, quietHost⟩, 0⟩

def Observed.called (w : Observed) (callback : Callback) (now : Nat) : Observed :=
  w.after (calling callback now) w.history

def Observed.answered (w : Observed) (now : Nat) (q : Moment) (rest : List Moment) : Observed :=
  w.after (calling (.listClients atSecond) now) (w.history.answer q rest atSecond)

lemma observes_answered {w now q rest} (clock : w.history.moment.2 ≤ now)
    (waiting : w.history.waiting = q :: rest) :
    Observes w (calling (.listClients atSecond) now) (w.answered now q rest) :=
  .answer rfl clock waiting

/-- A query of instant 0 is answered in time, and the answer is published. -/
theorem observations_attributed_in_time :
    Attributed ((newRoom.called twoTerminals 0).answered 20 (1, 0) []) (calling .timer 300)
      (((newRoom.called twoTerminals 0).answered 20 (1, 0) []).called .timer 300) := by
  have start : Reachable Fresh (fun w c w' => Observes w c w' ∧ Attributable w c) newRoom :=
    .start ⟨0, { sessionName := some "room" }, rfl⟩
  have seen :=
    start.next (a := calling twoTerminals 0) ⟨.call nofun le_rfl, trivial, .inr (.inr rfl)⟩
  have hwaiting : (newRoom.called twoTerminals 0).history.waiting = [(1, 0)] := by decide +kernel
  have last : Attributable (newRoom.called twoTerminals 0) (calling (.listClients atSecond) 20) := by
    refine ⟨trivial, fun _ _ => ?_⟩
    exact congrArg List.tail hwaiting
  have answered := seen.next ⟨observes_answered (Nat.zero_le 20) hwaiting, last⟩
  exact observations_attributed answered (.call nofun (by decide : 20 ≤ 300)) ⟨trivial, trivial⟩

/-- A query of instant 0 expires at 60000 and is sent again. The second terminal is closed at 60010.
The late answer to the first query makes the engine drop the second one and send a third, and the
answer to the second one is then taken for the third's. -/
def overtaken : Observed :=
  let closed := ((newRoom.called twoTerminals 0).called .timer 60000).called
    (.paneClosed (.terminal 2)) 60010
  (closed.answered 60020 (1, 0) [(2, 60000)]).answered 60030 (2, 60000) [(4, 60020)]

lemma overtaken_reachable : Reachable Fresh Observes overtaken := by
  have start : Reachable Fresh Observes newRoom := .start ⟨0, { sessionName := some "room" }, rfl⟩
  have seen := start.next (a := calling twoTerminals 0) (.call nofun le_rfl)
  have expired := seen.next (a := calling .timer 60000) (.call nofun (Nat.zero_le _))
  have closed := expired.next (a := calling (.paneClosed (.terminal 2)) 60010)
    (.call nofun (by decide : 60000 ≤ 60010))
  have late := closed.next (observes_answered (by decide : 60010 ≤ 60020)
    (by decide +kernel : _ = (1, 0) :: [(2, 60000)]))
  exact late.next (observes_answered (by decide : 60020 ≤ 60030)
    (by decide +kernel : _ = (2, 60000) :: [(4, 60020)]))

/-- That answer takes the roster mark away, and a topology without the second terminal goes out with
a client at it. -/
theorem late_answer_is_misattributed :
    ∃ w c w', Reachable Fresh Observes w ∧ Observes w c w' ∧ ¬Attributed w c w' := by
  refine ⟨overtaken, calling .timer 60200, overtaken.called .timer 60200, overtaken_reachable,
    .call nofun (by decide : 60030 ≤ 60200), fun attributed => ?_⟩
  obtain ⟨late, heffects, _, fresh⟩ := attributed.published
  obtain rfl : overtaken.effects (calling .timer 60200) = late := heffects
  have published : ∃ b ∈ overtaken.effects (calling .timer 60200),
      (b.topology.bind (·.clients)).isSome = true := by decide +kernel
  obtain ⟨b, hb, hclients⟩ := published
  obtain ⟨sample, hsample⟩ := isSome_iff_exists.mp hclients
  obtain ⟨payload, hpayload, hsample⟩ := bind_eq_some_iff.mp hsample
  obtain ⟨a, hsource, _, hle⟩ := fresh b hb payload sample hpayload hsample
  have source : (overtaken.called .timer 60200).history.source =
      some { asked := (2, 60000), clients := atSecond } := by decide +kernel
  have changed : (overtaken.called .timer 60200).history.changed = some (3, 60010) := by
    decide +kernel
  cases hsource
  exact absurd (hle _ changed) (by decide)

end Rimz.Presence
