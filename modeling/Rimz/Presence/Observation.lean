import Rimz.Presence.Clock
import Rimz.Presence.Samples

/-!
# What a callback says of the clients

The parts of the engine's callbacks against the history of client samples: which of its effects
carry a sample or confirm a switch, and that no part but an answer, a manifest or the closing of a
pane changes what the history is about.
-/

namespace Rimz.Presence
open Rimz.Lib Std

/-- The topology a command carries. -/
def Effect.topology : Effect → Option TopologyPayload
  | .runCommand (.wake wake) _ => wake.topology
  | _ => none

/-- The switch a wake confirms. -/
def WakeRequest.settles : WakeRequest → Option SettledSwitch
  | .switchSettled tab generation clients => some { tab, generation, clients }
  | _ => none

def Effect.settles : Effect → Option SettledSwitch
  | .runCommand (.wake wake) _ => wake.request.settles
  | _ => none

/-- A client sample on its way out was asked for after the last change of the roster. -/
def History.Fresh (h : History) (effect : Effect) : Prop :=
  ∀ payload sample, effect.topology = some payload → payload.clients = some sample →
    ∃ a, h.source = some a ∧ sample = clientSampleOf a.clients ∧
      ∀ m, h.changed = some m → m ≤ a.asked

/-! ## The parts of a callback -/

/-- An effect that asks nothing and confirms nothing. -/
structure Effect.Tame (h : History) (b : Effect) : Prop where
  asks : b ≠ .listClients
  settles : b.settles = none
  fresh : h.Fresh b

lemma filter_asks {bs : List Effect} (h : ∀ b ∈ bs, b ≠ .listClients) :
    bs.filter (· = .listClients) = [] :=
  filter_eq_nil_iff.mpr fun b hb => by simpa using h b hb

/-- A part of a callback that leaves the history as it is. -/
structure Phase (T : Prop) (h : History) (room : RoomState) (e : Engine) : Prop where
  sound : Sound T h e.focus
  placed : e.room.placed = room.placed

section Parts
variable {T : Prop} {h : History} {e : Engine} {now : Nat} {host : Host} {room : RoomState}

@[simp] lemma signalChange_focus : (e.signalChange now).focus = e.focus := by
  unfold Engine.signalChange
  split <;> rfl

@[simp] lemma signalChange_room : (e.signalChange now).room = e.room := by
  unfold Engine.signalChange
  split <;> rfl

@[simp] lemma flushPregrantChange_focus : (e.flushPregrantChange now).focus = e.focus := by
  unfold Engine.flushPregrantChange
  split <;> rfl

@[simp] lemma flushPregrantChange_room : (e.flushPregrantChange now).room = e.room := by
  unfold Engine.flushPregrantChange
  split <;> rfl

lemma topology_clients {payload} (hp : e.topology now = some payload) :
    payload.clients = e.focus.publishedSample := by
  simp only [Engine.topology, topologyJson, publishedTopologyPayload, bind, bind_eq_some_iff,
    pure, Option.some.injEq] at hp
  obtain ⟨name, _, shown, hshown, rfl⟩ := hp
  split at hshown
  · cases hshown
  · cases hshown
    rfl

lemma wakeArgv_eq {context request topology wake}
    (hw : wakeArgv host context request topology = some wake) :
    wake.request = request ∧ ∀ payload, wake.topology = some payload → topology = some payload := by
  unfold wakeArgv at hw
  split at hw
  · cases hw
  cases hw
  refine ⟨rfl, fun payload hpayload => ?_⟩
  split at hpayload
  · exact (filter_eq_some_iff.mp hpayload).1
  · cases hpayload

/-- The sample of a topology is the last answer, which no change of roster has put in doubt. -/
lemma runWake_fresh {request} (hs : Sound T h e.focus) :
    ∀ b ∈ e.runWake request now host, h.Fresh b ∧ b.settles = request.settles ∧
    b ≠ .listClients := by
  intro b hb
  unfold Engine.runWake at hb
  split at hb
  · cases hb
  split at hb
  · cases hb
  rename_i wake hwake
  rw [mem_singleton.mp hb]
  obtain ⟨hrequest, htopology⟩ := wakeArgv_eq hwake
  refine ⟨fun payload sample hpayload hsample => ?_, by rw [← hrequest]; rfl, nofun⟩
  rw [topology_clients (htopology payload hpayload), FocusSync.publishedSample] at hsample
  split at hsample
  · cases hsample
  rename_i hmark
  rw [hs.sample, map_eq_some_iff] at hsample
  obtain ⟨a, ha, rfl⟩ := hsample
  have hnone : e.focus.rosterChangedAt = none := by simpa using hmark
  exact ⟨a, ha, rfl, fun m hm => (hs.fresh hnone m hm).1 a ha⟩

lemma poke_tame {p} (hs : Sound T h e.focus) : ∀ b ∈ e.poke p now host, b.Tame h := by
  intro b hb
  unfold Engine.poke at hb
  split at hb
  · cases hb
  cases p with
  | changed | alive =>
    obtain ⟨fresh, settles, asks⟩ := runWake_fresh hs b hb
    exact ⟨asks, settles, fresh⟩

lemma tame_of_topology {b : Effect} (hask : b ≠ .listClients) (hsettles : b.settles = none)
    (htopology : b.topology = none) : b.Tame h :=
  ⟨hask, hsettles, fun payload _ hpayload => by rw [htopology] at hpayload; cases hpayload⟩

lemma hideSelf_tame : Effect.hideSelf.Tame h :=
  tame_of_topology nofun rfl rfl

lemma applyRuntimeReconfigure_tame : ∀ b ∈ e.applyRuntimeReconfigure, b.Tame h := by
  intro b hb
  obtain ⟨kdl, _, rfl⟩ := by simpa [Engine.applyRuntimeReconfigure] using hb
  exact tame_of_topology (by simp) rfl rfl

section
variable (hp : Phase T h room e)
include hp

lemma Phase.requestGeneralObservation : Phase T h room e.requestGeneralObservation :=
  ⟨hp.sound.requestGeneralObservation, hp.placed⟩

lemma Phase.signalChange : Phase T h room (e.signalChange now) :=
  ⟨by simpa using hp.sound, by simpa using hp.placed⟩

lemma Phase.flushPregrantChange : Phase T h room (e.flushPregrantChange now) :=
  ⟨by simpa using hp.sound, by simpa using hp.placed⟩

lemma Phase.markGranted :
    Emits (Phase T h room) (Effect.Tame h) (e.markGranted now host) := by
  unfold Engine.markGranted
  split
  · exact Emits.nil hp.flushPregrantChange
  have granted : Phase T h room (Engine.requestGeneralObservation { e with granted := true }) :=
    Phase.requestGeneralObservation ⟨hp.sound, hp.placed⟩
  apply Emits.andThen (Emits.all granted applyRuntimeReconfigure_tame)
  intro e' hp'
  split
  · exact Emits.nil hp'.flushPregrantChange
  · exact Emits.all hp' (poke_tame hp'.sound)

end

/-! ## The end of a callback -/

/-- A callback that ends here may have sent one query. -/
structure Closes (T : Prop) (h : History) (room : RoomState) (r : Engine × List Effect) (asks : Bool) :
    Prop where
  sound : Sound T (h.sends asks) r.1.focus
  placed : r.1.room.placed = room.placed
  asked : r.2.filter (· = .listClients) = if asks then [.listClients] else []
  settles : ∀ b ∈ r.2, b.settles = none
  fresh : ∀ b ∈ r.2, h.Fresh b

/-- A callback that ends here. -/
def Ends (T : Prop) (h : History) (room : RoomState) (r : Engine × List Effect) : Prop :=
  ∃ asks, Closes T h room r asks

variable {r : Engine × List Effect} {f : Engine → Engine × List Effect}

lemma Ends.andThen {P : Engine → Prop} (hr : Emits P (Effect.Tame h) r)
    (hf : ∀ e, P e → Ends T h room (f e)) : Ends T h room (andThen r f) := by
  obtain ⟨asks, hc⟩ := hf _ hr.state
  refine ⟨asks, hc.sound, hc.placed, ?_, fun b hb => ?_, fun b hb => ?_⟩
  · rw [Lib.andThen, filter_append, filter_asks fun b hb => (hr.outputs b hb).asks, nil_append]
    exact hc.asked
  · rcases mem_append.mp hb with hb | hb
    · exact (hr.outputs b hb).settles
    · exact hc.settles b hb
  · rcases mem_append.mp hb with hb | hb
    · exact (hr.outputs b hb).fresh
    · exact hc.fresh b hb

lemma Ends.still (hr : Emits (Phase T h room) (Effect.Tame h) r) : Ends T h room r := by
  refine ⟨false, ?_, hr.state.placed, ?_, fun b hb => (hr.outputs b hb).settles,
    fun b hb => (hr.outputs b hb).fresh⟩
  · simpa [History.sends] using hr.state.sound
  · exact filter_asks fun b hb => (hr.outputs b hb).asks

lemma rearm_tame : ∀ b ∈ (e.rearm now).2, b.Tame h := by
  intro b hb
  unfold Engine.rearm at hb
  dsimp only at hb
  split at hb
  · rw [mem_singleton.mp hb]
    exact tame_of_topology nofun rfl rfl
  · cases hb

lemma Phase.dispatchDue (hp : Phase T h room e) :
    Emits (Phase T h room) (Effect.Tame h) (e.dispatchDue now host) := by
  unfold Engine.dispatchDue
  apply Emits.emitAll (P := Phase T h room)
  · exact ⟨hp.sound, hp.placed⟩
  · intro e' p _ hp'
    unfold Engine.dispatchPoke
    dsimp only
    split
    · exact Emits.all hp'.requestGeneralObservation (poke_tame hp'.requestGeneralObservation.sound)
    · exact Emits.all hp' (poke_tame hp'.sound)

/-- The query goes out at the callback's moment; arming a timer changes nothing here. -/
lemma Phase.driveQuery (hp : Phase T h room e) (hnow : h.moment.2 = now) :
    Ends T h room (Lib.andThen (e.driveQuery now) fun e => e.rearm now) := by
  subst hnow
  have driven : Sound T (h.sends (e.focus.driveDueQuery h.moment.2 (!e.muted)).2)
      (e.focus.driveDueQuery h.moment.2 (!e.muted)).1 := hp.sound.driveDueQuery
  generalize hdrive : e.focus.driveDueQuery h.moment.2 (!e.muted) = drive at driven
  have query : e.driveQuery h.moment.2 =
      ({ e with focus := drive.1 }, if drive.2 then [.listClients] else []) := by
    simp only [Engine.driveQuery, hdrive]
  have armed : ∀ b ∈ (Engine.rearm { e with focus := drive.1 } h.moment.2).2, b.Tame h := rearm_tame
  have asks : ∀ b ∈ (if drive.2 then [Effect.listClients] else []), b = .listClients := by
    intro b hb
    split at hb
    · exact mem_singleton.mp hb
    · cases hb
  rw [query]
  refine ⟨drive.2, driven, hp.placed, ?_, fun b hb => ?_, fun b hb => ?_⟩
  · rw [Lib.andThen, filter_append, filter_asks fun b hb => (armed b hb).asks, append_nil]
    exact List.filter_eq_self.mpr fun b hb => by simpa using asks b hb
  · rcases mem_append.mp hb with hb | hb
    · rw [asks b hb]
      rfl
    · exact (armed b hb).settles
  · rcases mem_append.mp hb with hb | hb
    · rw [asks b hb]
      exact fun _ _ told => by cases told
    · exact (armed b hb).fresh

lemma Phase.finishUpdate (hp : Phase T h room e) (hnow : h.moment.2 = now) :
    Ends T h room (e.finishUpdate now host) := by
  apply Ends.andThen hp.dispatchDue
  intro e' hp'
  exact hp'.driveQuery hnow

/-! ## The callbacks -/

lemma Phase.foldRoom {folded} (hp : Phase T h room e) (hplaced : folded.1.placed = e.room.placed) :
    Phase T h room (e.foldRoom folded now) := by
  have updated : Phase T h room { e with room := folded.1 } := ⟨hp.sound, hplaced.trans hp.placed⟩
  unfold Engine.foldRoom
  split
  · exact updated.signalChange
  · exact updated

lemma placed_commandUpdate {pane update} :
    (Engine.commandUpdate room pane update).1.placed = room.placed := by
  cases update with
  | remember _ | shell _ | forget => exact RoomState.placed_updateTerminal fun _ => rfl

section
variable (hp : Phase T h room e)
include hp

lemma Phase.foldTabs {active tabNames tabIds other} :
    Phase T h room (e.foldTabs active tabNames tabIds other now) := by
  have updated : Phase T h room { e with
      tabNames, viewedTabs := e.viewedAfter active tabIds other, room := e.room.setTabIds tabIds } :=
    ⟨hp.sound, RoomState.placed_setTabIds.trans hp.placed⟩
  unfold Engine.foldTabs
  dsimp only
  split
  · exact updated.signalChange
  · exact updated

lemma Phase.foldSession {n} : Phase T h room (e.foldSession n now) := by
  have sound := hp.sound.acceptConnectedClients (n := n)
  unfold Engine.foldSession
  split
  · exact Phase.signalChange ⟨sound, hp.placed⟩
  · exact ⟨sound, hp.placed⟩

lemma Phase.acceptTopology {issuedAt : Nat} : Phase T h room (e.acceptTopology issuedAt now) := by
  unfold Engine.acceptTopology
  split
  · exact Phase.signalChange ⟨hp.sound, hp.placed⟩
  · exact ⟨hp.sound, hp.placed⟩

lemma Phase.revive : Phase T h room (e.revive now) := by
  unfold Engine.revive
  split
  · exact ⟨hp.sound.invalidateClientSample hp.sound.changed, hp.placed⟩
  · exact hp

lemma Phase.publishDueInput :
    Emits (Phase T h room) (Effect.Tame h) (e.publishDueInput now host) := by
  unfold Engine.publishDueInput
  split
  · exact Emits.nil hp
  split
  · split
    · next wake hwake =>
      obtain ⟨hrequest, htopology⟩ := wakeArgv_eq hwake
      refine Emits.one ⟨hp.sound, hp.placed⟩ (tame_of_topology nofun ?_ ?_)
      · simp only [Effect.settles, hrequest, WakeRequest.settles]
      · cases hpayload : wake.topology with
        | none => exact hpayload
        | some payload => cases htopology payload hpayload
    · exact Emits.nil ⟨hp.sound, hp.placed⟩
  · exact Emits.nil ⟨hp.sound, hp.placed⟩

lemma Phase.onRunCommandResult {exitCode issuedAt} (hnow : h.moment.2 = now) :
    Ends T h room (e.onRunCommandResult exitCode issuedAt now host) := by
  have failure : Ends T h room (e.countForkFailure now host) := by
    unfold Engine.countForkFailure
    dsimp only
    split
    · exact Ends.still (.nil ⟨hp.sound, hp.placed⟩)
    · exact Ends.still (.all ⟨hp.sound, hp.placed⟩ (poke_tame hp.sound))
  unfold Engine.onRunCommandResult
  split
  · split
    · unfold Engine.countRejection
      split
      · exact Ends.still (.nil hp)
      · exact Ends.still (.nil ⟨hp.sound, hp.placed⟩)
    split
    · have counted : Phase T h room { e with wakeForkFailures := 0 } := ⟨hp.sound, hp.placed⟩
      exact counted.acceptTopology.finishUpdate hnow
    · exact failure
  · split
    · exact Ends.still (.nil ⟨hp.sound, hp.placed⟩)
    · exact failure

lemma Phase.onRetirePipe {generation : Option TopologyWriter} :
    Ends T h room (e.onRetirePipe generation) := by
  have closes : Effect.closeSelf.Tame h := tame_of_topology nofun rfl rfl
  unfold Engine.onRetirePipe
  split
  · exact Ends.still (.nil hp)
  dsimp only
  split
  · exact Ends.still (.one hp closes)
  split
  · exact Ends.still (.nil hp)
  · split
    · exact Ends.still (.nil ⟨hp.sound, hp.placed⟩)
    · exact Ends.still (.one hp closes)

lemma Phase.onDumpTopologyPipe (hnow : h.moment.2 = now) :
    Ends T h room (e.onDumpTopologyPipe now host) := by
  have revived : Phase T h room (e.revive now) := hp.revive
  unfold Engine.onDumpTopologyPipe
  dsimp only
  split
  · exact Ends.still (.nil ⟨revived.sound, revived.placed⟩)
  have probed : Phase T h room { e.revive now with
      room := (e.revive now).room.probeMissingPids host.panePid } :=
    ⟨revived.sound, RoomState.placed_probeMissingPids.trans revived.placed⟩
  apply Ends.andThen (Emits.all probed (poke_tame probed.sound))
  intro e' hp'
  exact hp'.driveQuery hnow

end

/-- The callbacks that neither answer a query nor change the roster. -/
def Callback.Ordinary : Callback → Prop
  | .listClients _ | .paneManifest _ _ | .paneClosed _ => False
  | _ => True

lemma Phase.pipe {effects : List Effect} (hp : Phase T h room e)
    (htame : ∀ b ∈ effects, b ≠ .listClients ∧ b.settles = none ∧ b.topology = none) :
    Ends T h room (e, effects) :=
  Ends.still (.all hp fun b hb => tame_of_topology (htame b hb).1 (htame b hb).2.1 (htame b hb).2.2)

lemma Phase.on {c} (hp : Phase T h room e) (hnow : h.moment.2 = now) (hc : c.Ordinary)
    (hcounts : e.Counts c) : Ends T h room (e.on now host c) := by
  cases c with
  | listClients | paneManifest | paneClosed => cases hc
  | load => exact hp.finishUpdate hnow
  | permissionGranted =>
    show Ends T h room (e.onPermissionGranted now host)
    apply Ends.andThen (Emits.one hp hideSelf_tame)
    intro e hp
    apply Ends.andThen hp.markGranted
    intro e hp
    apply Ends.andThen (Emits.all hp applyRuntimeReconfigure_tame)
    intro e hp
    exact hp.finishUpdate hnow
  | permissionDenied =>
    have denied : Phase T h room { e with granted := false } := ⟨hp.sound, hp.placed⟩
    exact denied.finishUpdate hnow
  | tabUpdate active tabNames tabIds other =>
    show Ends T h room (e.onTabUpdate active tabNames tabIds other now host)
    have granted : Emits (Phase T h room) (Effect.Tame h) (e.markGranted now host) := hp.markGranted
    apply Ends.andThen (P := fun e' => Phase T h room e' ∧ e'.focus.generation = e.focus.generation)
      ⟨⟨granted.state, Engine.markGranted_generation⟩, granted.outputs⟩
    rintro e' ⟨hp, generation⟩
    have folded : Phase T h room (e'.foldTabs active tabNames tabIds other now) := hp.foldTabs
    apply Phase.finishUpdate _ hnow
    exact ⟨folded.sound.acceptTabUpdate (Engine.Counts.foldTabs hcounts generation), folded.placed⟩
  | commandChanged pane command isForeground =>
    exact (hp.foldRoom placed_commandUpdate).finishUpdate hnow
  | cwdChanged pane cwd =>
    have unchanged : (e.room.updateCwd pane cwd).1.placed = e.room.placed :=
      RoomState.placed_updateTerminal fun _ => rfl
    exact (hp.foldRoom unchanged).finishUpdate hnow
  | timer =>
    have fired : Phase T h room { e with timerGate := e.timerGate.onFire now } := ⟨hp.sound, hp.placed⟩
    show Ends T h room (e.onTimer now host)
    apply Ends.andThen fired.publishDueInput
    intro e hp
    exact hp.finishUpdate hnow
  | userAction clientId cliClientId motion =>
    show Ends T h room (e.onUserAction clientId cliClientId motion now host)
    unfold Engine.onUserAction
    split
    · exact Ends.still (.nil hp)
    have typed : Phase T h room { e with pendingInputMs := some now } := ⟨hp.sound, hp.placed⟩
    apply Ends.andThen typed.publishDueInput
    intro e hp
    exact Ends.still ⟨⟨hp.sound, hp.placed⟩, rearm_tame⟩
  | sessionUpdate n =>
    show Ends T h room (e.onSessionUpdate n now host)
    unfold Engine.onSessionUpdate
    apply Ends.andThen (P := Phase T h room)
    · refine Emits.all hp fun b hb => ?_
      split at hb
      · exact applyRuntimeReconfigure_tame b hb
      · cases hb
    · intro e hp
      apply Ends.andThen hp.markGranted
      intro e hp
      exact hp.foldSession.finishUpdate hnow
  | focusSidebarPipe | zoomPanePipe =>
    refine hp.pipe fun b hb => ?_
    split at hb
    · rw [mem_singleton.mp hb]
      exact ⟨nofun, rfl, rfl⟩
    · cases hb
  | palettePipe payload focus =>
    refine hp.pipe fun b hb => ?_
    split at hb
    · cases hb
    · rw [mem_singleton.mp hb]
      exact ⟨nofun, rfl, rfl⟩
  | toggleFullscreenPipe payload =>
    refine hp.pipe fun b hb => ?_
    split at hb
    · cases hb
    · obtain ⟨pane, _, rfl⟩ := by simpa using hb
      exact ⟨nofun, rfl, rfl⟩
  | dumpTopologyPipe => exact hp.onDumpTopologyPipe hnow
  | retirePipe => exact hp.onRetirePipe
  | runCommandResult => exact hp.onRunCommandResult hnow

end Parts

end Rimz.Presence
