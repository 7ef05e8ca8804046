import Rimz.Lib.Run
import Rimz.Lib.Timer
import Rimz.Presence.Engine
import Rimz.Presence.Queries

/-!
# The engine's clock

The engine lives on host timers: one-shot, anonymous, and late as the host likes. A run is any
sequence of callbacks after `on_load` in which a timer callback is the firing of a timer that is out
and due. After each callback a timer is out that goes off no later than the earliest deadline of the
engine.

The deadline of an input waiting to be published is the one that can be overdue when a timer fires:
the engine publishes it only with permission, but keeps counting it without. Then it arms a timer
for the current instant at every firing, and none for the deadline.
-/

namespace Rimz.Presence
open Rimz.Lib

/-- The instant a timer armed at `now` is due. -/
def Effect.dueAt (now : Nat) : Effect → Option Nat
  | .setTimeout ms => some (now + ms)
  | _ => none

/-- The engine with its clock and the timers that are out. -/
structure Ticking where
  engine : Engine
  clock : Nat
  timers : List Nat

/-- A callback has returned. -/
def Ticking.after (timers : List Nat) (now : Nat) (r : Engine × List Effect) : Ticking :=
  { engine := r.1, clock := now, timers := timers ++ r.2.filterMap (Effect.dueAt now) }

structure Call where
  callback : Callback
  now : Nat
  host : Host

/-- A call at a clock that does not go back; a timer callback is a timer going off. -/
inductive Ticks (s : Ticking) (c : Call) : Ticking → Prop where
  | call (notTimer : c.callback ≠ .timer) (clock : s.clock ≤ c.now) :
      Ticks s c (.after s.timers c.now (s.engine.on c.now c.host c.callback))
  | fire {t : Nat} (timer : c.callback = .timer) (clock : s.clock ≤ c.now) (out : t ∈ s.timers)
      (due : t ≤ c.now) :
      Ticks s c (.after (s.timers.erase t) c.now (s.engine.onTimer c.now c.host))

/-- An engine that has been created and loaded. -/
def Loaded (s : Ticking) : Prop :=
  ∃ created now config host, created ≤ now ∧
    s = .after [] now ((Engine.new created config).onLoad now host)

/-- A tab update does not wrap the counter of switches. -/
def Engine.Counts (e : Engine) : Callback → Prop
  | .tabUpdate _ _ _ _ => e.focus.generation + 1 < 2 ^ 64
  | _ => True

/-- A timer that fires behind the deadline of a waiting input finds the permission to publish it,
and no tab update wraps the counter of switches. -/
def InputTimely (s : Ticking) (c : Call) : Prop :=
  s.engine.Counts c.callback ∧ (c.callback = .timer → s.engine.granted = true ∨
    ∀ deadline, s.engine.inputDeadline = some deadline → c.now ≤ deadline)

/-! ## What leaves the clock alone -/

def Effect.Quiet (effect : Effect) : Prop :=
  ∀ ms, effect ≠ .setTimeout ms

lemma quiet_of_notMem {effects : List Effect} (h : ∀ ms, .setTimeout ms ∉ effects) :
    ∀ b ∈ effects, b.Quiet := by
  intro b hb ms hms
  exact h ms (hms ▸ hb)

/-- Neither the mark nor the waiting input has changed, and the synchronizer is still in order. -/
structure SameClock (e e' : Engine) : Prop where
  gate : e'.timerGate = e.timerGate
  input : e'.inputDeadline = e.inputDeadline
  focus : e.focus.Wf → e'.focus.Wf

lemma SameClock.refl (e : Engine) : SameClock e e :=
  ⟨rfl, rfl, id⟩

lemma SameClock.trans {e e' e''} (h : SameClock e e') (h' : SameClock e' e'') : SameClock e e'' :=
  ⟨h'.gate.trans h.gate, h'.input.trans h.input, fun hf => h'.focus (h.focus hf)⟩

section SameClock
variable {e e' : Engine} {now : Nat}

lemma SameClock.signalChange (h : SameClock e e') : SameClock e (e'.signalChange now) := by
  apply h.trans
  unfold Engine.signalChange
  split <;> exact ⟨rfl, rfl, id⟩

lemma SameClock.flushPregrantChange (h : SameClock e e') :
    SameClock e (e'.flushPregrantChange now) := by
  apply h.trans
  unfold Engine.flushPregrantChange
  split <;> exact ⟨rfl, rfl, id⟩

lemma SameClock.requestGeneralObservation (h : SameClock e e') :
    SameClock e e'.requestGeneralObservation :=
  h.trans ⟨rfl, rfl, FocusSync.Wf.requestGeneralObservation⟩

end SameClock

namespace Engine
variable {e : Engine} {now : Nat} {host : Host}

lemma runWake_quiet {request : WakeRequest} : ∀ b ∈ e.runWake request now host, b.Quiet := by
  apply quiet_of_notMem
  intro ms
  unfold runWake
  split
  · simp
  · split <;> simp

lemma poke_quiet {p : Poke} : ∀ b ∈ e.poke p now host, b.Quiet := by
  unfold poke
  split
  · intro b hb
    cases hb
  · cases p with
    | changed | alive => exact runWake_quiet

lemma applyRuntimeReconfigure_quiet : ∀ b ∈ e.applyRuntimeReconfigure, b.Quiet := by
  apply quiet_of_notMem
  simp [applyRuntimeReconfigure]

lemma markGranted_sameClock : Emits (SameClock e) Effect.Quiet (e.markGranted now host) := by
  unfold markGranted
  split
  · exact Emits.nil (SameClock.refl e).flushPregrantChange
  have granted : SameClock e (requestGeneralObservation { e with granted := true }) :=
    SameClock.requestGeneralObservation ⟨rfl, rfl, id⟩
  apply Emits.andThen (Emits.all granted applyRuntimeReconfigure_quiet)
  intro e' he'
  split
  · exact Emits.nil he'.flushPregrantChange
  · exact Emits.all he' poke_quiet

lemma foldRoom_sameClock {folded} : SameClock e (e.foldRoom folded now) := by
  unfold foldRoom
  split
  · exact SameClock.signalChange ⟨rfl, rfl, id⟩
  · exact ⟨rfl, rfl, id⟩

lemma foldManifest_sameClock {rawHash project} :
    SameClock e (e.foldManifest rawHash project now host) := by
  unfold foldManifest
  dsimp only
  split
  · exact ⟨rfl, rfl, id⟩
  have applied : SameClock e { e with
      lastRawStableHash := some rawHash
      room := (e.room.applyManifest (project e.tabNames) host.panePid).1
      focus := if e.invalidatesSample (e.room.applyManifest (project e.tabNames) host.panePid).1
        then e.focus.invalidateClientSample now else e.focus } := by
    refine ⟨rfl, rfl, fun hf => ?_⟩
    split
    · exact hf.invalidateClientSample
    · exact hf
  split
  · exact applied.signalChange
  · exact applied

lemma foldTabs_sameClock {active tabNames tabIds other} :
    SameClock e (e.foldTabs active tabNames tabIds other now) := by
  unfold foldTabs
  dsimp only
  split
  · exact SameClock.signalChange ⟨rfl, rfl, id⟩
  · exact ⟨rfl, rfl, id⟩

lemma markGranted_generation :
    (e.markGranted now host).1.focus.generation = e.focus.generation := by
  unfold markGranted flushPregrantChange
  split
  · split <;> rfl
  · dsimp only [andThen]
    split <;> rfl

lemma foldTabs_generation {active tabNames tabIds other} :
    (e.foldTabs active tabNames tabIds other now).focus.generation = e.focus.generation := by
  unfold foldTabs signalChange
  dsimp only
  split
  · split <;> rfl
  · rfl

/-- A tab update reaches the synchronizer with the counter it found. -/
lemma Counts.foldTabs {e' : Engine} {active tabNames tabIds other}
    (h : e.Counts (.tabUpdate active tabNames tabIds other))
    (hsame : e'.focus.generation = e.focus.generation) :
    (e'.foldTabs active tabNames tabIds other now).focus.generation + 1 < 2 ^ 64 := by
  rw [foldTabs_generation, hsame]
  exact h

lemma foldClosed_sameClock {pane} : SameClock e (e.foldClosed pane now) := by
  unfold foldClosed
  dsimp only
  split
  · exact SameClock.signalChange ⟨rfl, rfl, FocusSync.Wf.invalidateClientSample⟩
  · exact ⟨rfl, rfl, id⟩

lemma foldSession_sameClock {n} : SameClock e (e.foldSession n now) := by
  unfold foldSession
  split
  · exact SameClock.signalChange ⟨rfl, rfl, FocusSync.Wf.acceptConnectedClients⟩
  · exact ⟨rfl, rfl, FocusSync.Wf.acceptConnectedClients⟩

lemma acceptTopology_sameClock {issuedAt : Nat} : SameClock e (e.acceptTopology issuedAt now) := by
  unfold acceptTopology
  split
  · exact SameClock.signalChange ⟨rfl, rfl, id⟩
  · exact ⟨rfl, rfl, id⟩

lemma dispatchDue_sameClock :
    Emits (fun e' => SameClock e e' ∧ now < e'.policy.nextWakeAt) Effect.Quiet
      (e.dispatchDue now host) := by
  unfold dispatchDue
  apply Emits.emitAll
  · exact ⟨⟨rfl, rfl, id⟩, PokePolicy.lt_nextWakeAt_due e.policy now⟩
  · rintro e' p _ ⟨same, ahead⟩
    refine Emits.all ?_ poke_quiet
    split
    · exact ⟨same.requestGeneralObservation, ahead⟩
    · exact ⟨same, ahead⟩

lemma driveQuery_sameClock (hf : e.focus.Wf) :
    Emits (fun e' => SameClock e e' ∧ e'.policy = e.policy ∧
        ∀ deadline, e'.focus.nextDeadline = some deadline → now < deadline)
      Effect.Quiet (e.driveQuery now) := by
  refine ⟨⟨⟨rfl, rfl, FocusSync.Wf.driveDueQuery⟩, rfl, fun _ hd => hf.lt_nextDeadline hd⟩, ?_⟩
  apply quiet_of_notMem
  intro ms
  unfold driveQuery
  split
  all_goals simp

/-! ## Arming -/

lemma nextDeadline_eq (e : Engine) :
    e.nextDeadline = e.policy.nextWakeAt ∨ e.focus.nextDeadline = some e.nextDeadline ∨
      e.inputDeadline = some e.nextDeadline := by
  unfold nextDeadline
  cases e.focus.nextDeadline <;> cases e.inputDeadline <;>
    simp only [Option.toList, append_nil, nil_append, cons_append, List.foldr_cons,
      List.foldr_nil, Option.some.injEq, reduceCtorEq, false_or, or_false] <;> omega

lemma nextDeadline_le_policy (e : Engine) : e.nextDeadline ≤ e.policy.nextWakeAt := by
  unfold nextDeadline
  cases e.focus.nextDeadline <;> cases e.inputDeadline <;> simp

lemma nextDeadline_le_focus {deadline} (h : e.focus.nextDeadline = some deadline) :
    e.nextDeadline ≤ deadline := by
  unfold nextDeadline
  rw [h]
  cases e.inputDeadline <;> simp

lemma nextDeadline_le_input {deadline} (h : e.inputDeadline = some deadline) :
    e.nextDeadline ≤ deadline := by
  unfold nextDeadline
  rw [h]
  cases e.focus.nextDeadline <;> simp

end Engine

/-- The engine's clock is sound: the mark stands for a timer, and one covers the earliest
deadline. -/
structure Armed (s : Ticking) : Prop where
  focus : s.engine.focus.Wf
  marks : Marks s.clock s.timers s.engine.timerGate.armedFor
  covers : Covers s.timers s.engine.nextDeadline

/-- What the end of a callback starts from. -/
structure Ready (timers : List Nat) (now : Nat) (e : Engine) : Prop where
  focus : e.focus.Wf
  marks : Marks now timers e.timerGate.armedFor
  input : ∀ deadline, e.inputDeadline = some deadline → now ≤ deadline ∨ Covers timers deadline

section Arming
variable {e e' : Engine} {now : Nat} {host : Host} {timers : List Nat} {r : Engine × List Effect}
  {f : Engine → Engine × List Effect} {s : Ticking}

lemma Ready.same (h : Ready timers now e) (hs : SameClock e e') : Ready timers now e' where
  focus := hs.focus h.focus
  marks := hs.gate ▸ h.marks
  input := hs.input ▸ h.input

lemma Armed.ready (h : Armed s) (hclock : s.clock ≤ now) : Ready s.timers now s.engine where
  focus := h.focus
  marks := h.marks.later hclock
  input _ hd := .inr (h.covers.mono (Engine.nextDeadline_le_input hd))

lemma after_quiet (h : ∀ b ∈ r.2, b.Quiet) :
    Ticking.after timers now r = { engine := r.1, clock := now, timers } := by
  have none_due : r.2.filterMap (Effect.dueAt now) = [] := by
    rw [List.filterMap_eq_nil_iff]
    intro b hb
    cases b with
    | setTimeout ms => exact absurd rfl (h _ hb ms)
    | _ => rfl
  simp [Ticking.after, none_due]

lemma after_andThen (h : ∀ b ∈ r.2, b.Quiet) :
    Ticking.after timers now (andThen r f) = Ticking.after timers now (f r.1) := by
  have quiet : Ticking.after timers now r = { engine := r.1, clock := now, timers } :=
    after_quiet h
  simp only [Ticking.after, Ticking.mk.injEq, List.append_right_eq_self, true_and] at quiet
  simp [Ticking.after, andThen, filterMap_append, quiet]

lemma Armed.andThen {P} (h : Emits P Effect.Quiet r)
    (hf : ∀ e, P e → Armed (.after timers now (f e))) :
    Armed (.after timers now (andThen r f)) := by
  rw [after_andThen h.outputs]
  exact hf _ h.state

lemma Armed.rearm (hf : e.focus.Wf) (hm : Marks now timers e.timerGate.armedFor)
    (hd : now ≤ e.nextDeadline ∨ Covers timers e.nextDeadline) :
    Armed (.after timers now (e.rearm now)) := by
  by_cases hmark : e.timerGate.armedFor.all (e.nextDeadline < ·) = true
  · simp only [Engine.rearm, TimerGate.shouldArm, hmark, if_true]
    have marks : Marks now (timers ++ [now + (e.nextDeadline - now)]) (some e.nextDeadline) :=
      Marks.arm hd
    exact ⟨hf, marks, marks.covers⟩
  cases harmed : e.timerGate.armedFor with
  | none => simp [harmed] at hmark
  | some mark =>
    have earlier : mark ≤ e.nextDeadline := by simpa [harmed] using hmark
    have covers : Covers timers e.nextDeadline := (harmed ▸ hm).covers.mono earlier
    simp only [Engine.rearm, TimerGate.shouldArm, hmark]
    rw [after_quiet (by simp)]
    exact ⟨hf, hm, covers⟩

lemma Ready.finishUpdate (h : Ready timers now e) :
    Armed (.after timers now (e.finishUpdate now host)) := by
  apply Armed.andThen Engine.dispatchDue_sameClock
  rintro e1 ⟨same, policy⟩
  have ready := h.same same
  apply Armed.andThen (Engine.driveQuery_sameClock ready.focus)
  rintro e2 ⟨same, hpolicy, focus⟩
  have ready := ready.same same
  refine Armed.rearm ready.focus ready.marks ?_
  rcases Engine.nextDeadline_eq e2 with hd | hd | hd
  · left
    rw [hd, hpolicy]
    exact policy.le
  · exact .inl (focus _ hd).le
  · exact ready.input _ hd

lemma Armed.still {effects} (h : Armed s) (quiet : ∀ b ∈ effects, b.Quiet) (focus : e.focus.Wf)
    (marks : Marks now s.timers e.timerGate.armedFor)
    (deadline : e.nextDeadline = s.engine.nextDeadline) :
    Armed (.after s.timers now (e, effects)) := by
  rw [after_quiet quiet]
  exact ⟨focus, marks, deadline ▸ h.covers⟩

end Arming

/-! ## The callbacks -/

section Callbacks
variable {s : Ticking} {now : Nat} {host : Host} {timers : List Nat}

/-- An input whose deadline has come is no longer waiting, if it may be published. -/
lemma publishDueInput_spec (e : Engine) :
    Emits (fun e' => e'.timerGate = e.timerGate ∧ e'.focus = e.focus ∧ e'.policy = e.policy ∧
        ∀ deadline, e'.inputDeadline = some deadline →
          now < deadline ∨ (e.granted = false ∧ e.inputDeadline = some deadline))
      Effect.Quiet (e.publishDueInput now host) := by
  unfold Engine.publishDueInput
  split
  · next hwait =>
    refine Emits.nil ⟨rfl, rfl, rfl, fun deadline hd => ?_⟩
    rcases Bool.or_eq_true_iff.mp hwait with denied | early
    · exact .inr ⟨by simpa using denied, hd⟩
    · rw [hd] at early
      exact .inl (by simpa using early)
  have published : ∀ (at_ : Option Nat) (deadline : Nat),
      Engine.inputDeadline { e with pendingInputMs := none, lastInputPublishedAt := at_ } =
        some deadline → False := by
    intro at_ deadline hd
    cases hd
  split
  · split
    · exact Emits.one ⟨rfl, rfl, rfl, fun _ hd => (published _ _ hd).elim⟩ fun _ h => by cases h
    · exact Emits.nil ⟨rfl, rfl, rfl, fun _ hd => (published _ _ hd).elim⟩
  · exact Emits.nil ⟨rfl, rfl, rfl, fun _ hd => (published _ _ hd).elim⟩

lemma Armed.onUserAction {clientId cliClientId motion} (h : Armed s) (hclock : s.clock ≤ now) :
    Armed (.after s.timers now (s.engine.onUserAction clientId cliClientId motion now host)) := by
  unfold Engine.onUserAction
  split
  · exact h.still (fun _ hb => by cases hb) h.focus (h.marks.later hclock) rfl
  apply Armed.andThen (publishDueInput_spec _)
  rintro e ⟨gate, focus, policy, input⟩
  refine Armed.rearm (focus ▸ h.focus) (gate ▸ h.marks.later hclock) ?_
  -- the policy and the synchronizer still have their deadlines, which were covered
  rcases Engine.nextDeadline_eq e with hd | hd | hd
  · right
    rw [hd, policy]
    exact h.covers.mono (Engine.nextDeadline_le_policy _)
  · rw [focus] at hd
    exact .inr (h.covers.mono (Engine.nextDeadline_le_focus hd))
  · rcases input _ hd with ahead | ⟨denied, _⟩
    · exact .inl ahead.le
    · simp_all

lemma Armed.onDumpTopologyPipe (h : Armed s) (hclock : s.clock ≤ now) :
    Armed (.after s.timers now (s.engine.onDumpTopologyPipe now host)) := by
  -- a revived engine forgets its mark; its timers are still out
  obtain ⟨focus, marks, policy, hfocus, input⟩ : (s.engine.revive now).focus.Wf ∧
      Marks now s.timers (s.engine.revive now).timerGate.armedFor ∧
      (s.engine.revive now).policy = s.engine.policy ∧
      (s.engine.revive now).focus.nextDeadline = s.engine.focus.nextDeadline ∧
      (s.engine.revive now).inputDeadline = s.engine.inputDeadline := by
    unfold Engine.revive
    split
    · exact ⟨h.focus.invalidateClientSample, Marks.unmarked, rfl,
        FocusSync.nextDeadline_invalidateClientSample, rfl⟩
    · exact ⟨h.focus, h.marks.later hclock, rfl, rfl, rfl⟩
  have deadline : (s.engine.revive now).nextDeadline = s.engine.nextDeadline := by
    simp only [Engine.nextDeadline, policy, hfocus, input]
  unfold Engine.onDumpTopologyPipe
  dsimp only
  split
  · exact h.still (fun _ hb => by cases hb) focus marks deadline
  apply Armed.andThen (Emits.all (P := fun e => e = _) rfl Engine.poke_quiet)
  rintro _ rfl
  refine Armed.andThen (Engine.driveQuery_sameClock (by exact focus)) ?_
  rintro e ⟨same, hpolicy, ahead⟩
  refine Armed.rearm (same.focus focus) (same.gate ▸ marks) ?_
  rcases Engine.nextDeadline_eq e with hd | hd | hd
  · right
    rw [hd, hpolicy]
    exact h.covers.mono (policy ▸ Engine.nextDeadline_le_policy _)
  · exact .inl (ahead _ hd).le
  right
  have hinput : s.engine.inputDeadline = some e.nextDeadline := by
    rw [← input, ← hd, same.input]
    rfl
  exact h.covers.mono (Engine.nextDeadline_le_input hinput)

lemma Armed.onRunCommandResult {exitCode issuedAt} (h : Armed s) (hclock : s.clock ≤ now) :
    Armed (.after s.timers now (s.engine.onRunCommandResult exitCode issuedAt now host)) := by
  have marks := h.marks.later hclock
  have failure : Armed (.after s.timers now (s.engine.countForkFailure now host)) := by
    unfold Engine.countForkFailure
    dsimp only
    split
    · exact h.still (fun _ hb => by cases hb) h.focus marks rfl
    · exact h.still Engine.poke_quiet h.focus marks rfl
  unfold Engine.onRunCommandResult
  split
  · next issuedAt =>
    split
    · unfold Engine.countRejection
      split
      all_goals exact h.still (fun _ hb => by cases hb) h.focus marks rfl
    split
    · have counted : SameClock s.engine { s.engine with wakeForkFailures := 0 } := ⟨rfl, rfl, id⟩
      apply Ready.finishUpdate
      exact (h.ready hclock).same (counted.trans Engine.acceptTopology_sameClock)
    · exact failure
  · split
    · exact h.still (fun _ hb => by cases hb) h.focus marks rfl
    · exact failure

lemma Armed.onRetirePipe {generation} (h : Armed s) (hclock : s.clock ≤ now) :
    Armed (.after s.timers now (s.engine.onRetirePipe generation)) := by
  have marks := h.marks.later hclock
  have closes : ∀ b ∈ [Effect.closeSelf], b.Quiet := by simp [Effect.Quiet]
  unfold Engine.onRetirePipe
  split
  · exact h.still (fun _ hb => by cases hb) h.focus marks rfl
  dsimp only
  split
  · exact h.still closes h.focus marks rfl
  split
  · exact h.still (fun _ hb => by cases hb) h.focus marks rfl
  · split
    · exact h.still (fun _ hb => by cases hb) h.focus marks rfl
    · exact h.still closes h.focus marks rfl

lemma Ready.onListClients {clients} (h : Ready timers now s.engine) :
    Armed (.after timers now (s.engine.onListClients clients now host)) := by
  have accepted : Ready timers now
      { s.engine with focus := (s.engine.focus.acceptClientSample clients now).1 } :=
    h.same ⟨rfl, rfl, FocusSync.Wf.acceptClientSample⟩
  unfold Engine.onListClients
  dsimp only
  apply Armed.andThen (Emits.all (P := Ready timers now) ?_ ?_)
  · intro e ready
    exact ready.finishUpdate
  · split
    · exact accepted.same (SameClock.refl _).signalChange
    · exact accepted
  · split
    · exact Engine.runWake_quiet
    · intro b hb
      cases hb

/-- Every callback but a timer's keeps the clock. -/
lemma Armed.on {c : Callback} (h : Armed s) (hclock : s.clock ≤ now) (hc : c ≠ .timer)
    (hcounts : s.engine.Counts c) :
    Armed (.after s.timers now (s.engine.on now host c)) := by
  have ready := h.ready hclock
  have marks := h.marks.later hclock
  cases c with
  | load => exact ready.finishUpdate
  | permissionGranted =>
    have hides : Effect.hideSelf.Quiet := nofun
    apply Armed.andThen (Emits.one ready hides)
    intro e ready
    apply Armed.andThen Engine.markGranted_sameClock
    intro e same
    apply Armed.andThen (Emits.all (ready.same same) Engine.applyRuntimeReconfigure_quiet)
    intro e ready
    exact ready.finishUpdate
  | permissionDenied =>
    have denied : Ready s.timers now { s.engine with granted := false } :=
      ready.same ⟨rfl, rfl, id⟩
    exact denied.finishUpdate
  | paneManifest rawHash project =>
    apply Armed.andThen Engine.markGranted_sameClock
    intro e same
    have folded : SameClock s.engine
        (e.requestGeneralObservation.foldManifest rawHash project now host) :=
      same.requestGeneralObservation.trans Engine.foldManifest_sameClock
    refine Armed.andThen (Emits.all (ready.same folded) (quiet_of_notMem fun ms => ?_)) ?_
    · split <;> simp
    · intro e ready
      exact ready.finishUpdate
  | tabUpdate active tabNames tabIds other =>
    have granted : Emits (SameClock s.engine) Effect.Quiet (s.engine.markGranted now host) :=
      Engine.markGranted_sameClock
    apply Armed.andThen (P := fun e => SameClock s.engine e ∧
      e.focus.generation = s.engine.focus.generation)
      ⟨⟨granted.state, Engine.markGranted_generation⟩, granted.outputs⟩
    rintro e ⟨same, generation⟩
    have folded : SameClock s.engine (e.foldTabs active tabNames tabIds other now) :=
      same.trans Engine.foldTabs_sameClock
    apply Ready.finishUpdate
    exact ready.same (folded.trans
      ⟨rfl, rfl, fun wf => wf.acceptTabUpdate (Engine.Counts.foldTabs hcounts generation)⟩)
  | commandChanged pane command isForeground =>
    exact (ready.same Engine.foldRoom_sameClock).finishUpdate
  | cwdChanged pane cwd => exact (ready.same Engine.foldRoom_sameClock).finishUpdate
  | paneClosed pane =>
    apply Armed.andThen Engine.markGranted_sameClock
    intro e same
    exact (ready.same (same.trans Engine.foldClosed_sameClock)).finishUpdate
  | timer => exact absurd rfl hc
  | userAction => exact h.onUserAction hclock
  | sessionUpdate n =>
    have reconfigures : ∀ b ∈ (if s.engine.granted &&
        n.any (s.engine.focus.connectedClients.getD 0 < ·) then s.engine.applyRuntimeReconfigure
          else []), b.Quiet := by
      split
      · exact Engine.applyRuntimeReconfigure_quiet
      · intro b hb
        cases hb
    apply Armed.andThen (Emits.all ready reconfigures)
    intro e ready
    apply Armed.andThen Engine.markGranted_sameClock
    intro e same
    exact (ready.same (same.trans Engine.foldSession_sameClock)).finishUpdate
  | listClients clients => exact ready.onListClients
  | focusSidebarPipe | zoomPanePipe
  | palettePipe | toggleFullscreenPipe => exact h.still (quiet_of_notMem (by simp)) h.focus marks rfl
  | dumpTopologyPipe => exact h.onDumpTopologyPipe hclock
  | retirePipe => exact h.onRetirePipe hclock
  | runCommandResult => exact h.onRunCommandResult hclock

/-- A timer goes off. It may have been the last one out, so the deadlines must be ahead. -/
lemma Armed.onTimer {t} (h : Armed s) (hclock : s.clock ≤ now) (hdue : t ≤ now)
    (htimely : s.engine.granted = true ∨ ∀ deadline, s.engine.inputDeadline = some deadline → now ≤ deadline) :
    Armed (.after (s.timers.erase t) now (s.engine.onTimer now host)) := by
  have marks : Marks now (s.timers.erase t) (s.engine.timerGate.onFire now).armedFor := by
    have fired := h.marks.fire hclock hdue
    unfold TimerGate.onFire
    split
    · exact Marks.unmarked
    · next hmark => simpa [hmark] using fired
  apply Armed.andThen (publishDueInput_spec _)
  rintro e ⟨gate, focus, policy, input⟩
  have ready : Ready (s.timers.erase t) now e := by
    refine ⟨focus ▸ h.focus, gate ▸ marks, fun deadline hd => ?_⟩
    rcases input deadline hd with ahead | ⟨denied, waiting⟩
    · exact .inl ahead.le
    rcases htimely with granted | timely
    · rw [show s.engine.granted = false from denied] at granted
      cases granted
    · exact .inl (timely deadline waiting)
  exact ready.finishUpdate

end Callbacks

/-! ## Runs -/

lemma armed_of_loaded {s} (h : Loaded s) : Armed s := by
  obtain ⟨created, now, config, host, _, rfl⟩ := h
  apply Ready.finishUpdate
  refine ⟨⟨nofun, nofun, nofun⟩,
    Marks.unmarked, nofun⟩

/-- **The engine never loses its clock.** In every run in which a timer that fires behind the
deadline of a waiting input finds the permission to publish it, and no tab update wraps the counter
of switches, some timer is out that goes off no later than the earliest of the engine's
deadlines. -/
theorem timer_covers_deadlines {s : Ticking}
    (h : Reachable Loaded (fun s c s' => Ticks s c s' ∧ InputTimely s c) s) :
    Covers s.timers s.engine.nextDeadline := by
  have armed : Armed s := by
    refine Reachable.invariant (P := Armed) (fun _ hs => armed_of_loaded hs) ?_ h
    rintro s c s' _ armed ⟨step, timely⟩
    cases step with
    | call notTimer clock => exact armed.on clock notTimer timely.1
    | fire timer clock _ due => exact armed.onTimer clock due (timely.2 timer)
  exact armed.covers

/-- A host that knows no processes. -/
def quietHost : Host :=
  { panePid := fun _ => none, telemetry := {}, topologyBytes := fun _ => 0 }

/-- The engine is loaded and granted at 0. Its client types at 10, which is published, and at 20,
which waits until 1010. -/
def waitingInput : Ticking :=
  let config : EngineConfig := { sessionName := some "room", clientId := some 1 }
  let loaded := Ticking.after [] 0 ((Engine.new 0 config).onLoad 0 quietHost)
  let granted := Ticking.after loaded.timers 0 (loaded.engine.on 0 quietHost .permissionGranted)
  let typed := Ticking.after granted.timers 10
    (granted.engine.on 10 quietHost (.userAction 1 none false))
  .after typed.timers 20 (typed.engine.on 20 quietHost (.userAction 1 none false))

lemma waitingInput_reachable :
    Reachable Loaded (fun s c s' => Ticks s c s' ∧ InputTimely s c) waitingInput := by
  have loaded : Reachable Loaded (fun s c s' => Ticks s c s' ∧ InputTimely s c) _ :=
    .start ⟨0, 0, { sessionName := some "room", clientId := some 1 }, quietHost, le_rfl, rfl⟩
  have granted := loaded.next (a := ⟨.permissionGranted, 0, quietHost⟩)
    ⟨.call nofun le_rfl, trivial, nofun⟩
  have typed := granted.next (a := ⟨.userAction 1 none false, 10, quietHost⟩)
    ⟨.call nofun (Nat.zero_le _), trivial, nofun⟩
  exact typed.next (a := ⟨.userAction 1 none false, 20, quietHost⟩)
    ⟨.call nofun (Nat.le_add_left 10 10), trivial, nofun⟩

/-- With permission the timer for 1010 publishes the input, however late it fires. -/
theorem timer_covers_deadlines_published :
    1010 ∈ waitingInput.timers ∧
      Covers (Ticking.after (waitingInput.timers.erase 1010) 1020
          (waitingInput.engine.onTimer 1020 quietHost)).timers
        (waitingInput.engine.onTimer 1020 quietHost).1.nextDeadline :=
  have out : 1010 ∈ waitingInput.timers := by decide +kernel
  ⟨out, timer_covers_deadlines (waitingInput_reachable.next (a := ⟨.timer, 1020, quietHost⟩)
    ⟨.fire rfl (Nat.le_add_left 20 1000) out (Nat.le_add_left 1010 10), trivial,
      fun _ => .inl rfl⟩)⟩

/-- Without it the engine arms a timer for the instant of the firing, later than the deadline, and
again at every firing. -/
theorem denied_input_is_overdue :
    ∃ s, Reachable Loaded Ticks s ∧ s.engine.inputDeadline = some 1010 ∧ s.timers = [60000, 1020] ∧
      ¬Covers s.timers s.engine.nextDeadline := by
  have waiting : Reachable Loaded Ticks waitingInput :=
    waitingInput_reachable.mono fun _ _ _ step => step.1
  have denied := waiting.next (a := ⟨.permissionDenied, 30, quietHost⟩)
    (.call nofun (Nat.le_add_left 20 10))
  have fired := denied.next (Ticks.fire (c := ⟨.timer, 1020, quietHost⟩) (t := 1010) rfl
    (by decide : 30 ≤ 1020) (by decide +kernel) (by decide))
  exact ⟨_, fired, by decide +kernel, by decide +kernel, by decide +kernel⟩

end Rimz.Presence
