import Rimz.Workflow.Bounded

/-!
# Sections keep the trail

Each section of the engine keeps the invariant of `Bounded`, as long as no step with `max-visits` is
left on a route that leads back to it through a step without one.
-/

namespace Rimz.Workflow
open Std Relation Rimz.Lib WorkflowSpec Transition

variable {spec : WorkflowSpec} {book : Book} {d d' : Disk} {t t' : Transition}
  {js : List JournalEntry} {me : Host} {i : Reading}

/-- A route that a record's step may be left by without a visit: a bound is spent, or a wait for
capacity gives up. -/
inductive RunRecord.Bypass (spec : WorkflowSpec) (r : RunRecord) : String → Prop where
  | cap {step : Step} {target : String} (hstep : spec.steps[r.node]? = some step)
      (spent : (step.trippedVisitBound r).isSome = true) (goes : spec.target r.node "cap" = some target) :
      Bypass spec r target
  | capacity {wait : Wait} {target : String} (hwait : r.wait = some wait)
      (waits : wait.outcome = "capacity") (gives : wait.givesUpAt.isSome = true)
      (goes : spec.target r.node "capacity" = some target) : Bypass spec r target

/-- No step with `max-visits` is left on a route that leads back to it through a step without
one. -/
def RunRecord.Contained (spec : WorkflowSpec) (r : RunRecord) : Prop :=
  spec.capped r.node = true → ∀ target, r.Bypass spec target → ¬spec.Loops r.node target

section
variable (h : Tracked spec t.record)
include h

lemma Tracked.persist : Tracked spec (d.persist t).record := by
  simp only [Disk.persist]
  split
  · refine h.keep ⟨rfl, rfl, rfl⟩ ?_
    simp only [RunRecord.place, h.restart]
  · exact h

lemma Tracked.editAttempt {f} (ending : ∀ a, (f a).ending = a.ending) :
    Tracked spec (t.editAttempt f).record := by
  refine h.keep ⟨rfl, rfl, rfl⟩ ?_
  simp only [RunRecord.place, Transition.editAttempt, Transition.edit, map_map]
  rw [show LiveAttempt.ending ∘ f = LiveAttempt.ending from funext ending]

lemma Tracked.own (me : Host) : Tracked spec (t.editAttempt fun a => { a with host := me }).record :=
  h.editAttempt fun _ => rfl

lemma Tracked.turnEnd {attempt action verdict reason}
    (ended : t.turnEnd attempt action verdict reason = some t') : Tracked spec t'.record := by
  rw [(turnEnd_spec ended).2]
  exact h

end

lemma deadlineDue_unfired {r : RunRecord} {now} (due : r.deadlineDue now = true) :
    r.deadlineFired = false := by
  simp only [RunRecord.deadlineDue, and_eq_true, not_eq_true'] at due
  exact due.1

lemma agentEnding_stageable {attempt : LiveAttempt} {observed hostLive ending}
    (h : agentEnding spec t attempt observed hostLive = some ending) :
    Stageable spec t.record ending := by
  simp only [agentEnding] at h
  split at h
  · next due =>
    cases h
    exact .plain nofun (fun _ => deadlineDue_unfired due) rfl
  split at h
  · cases h
    exact .plain nofun nofun rfl
  simp only [map_eq_some_iff] at h
  obtain ⟨outcome, -, e⟩ := h
  cases e
  exact .plain (fun _ e => by cases e) (fun e => by cases e) rfl

/-- A session becomes held under the first check of its step. -/
lemma Tracked.begin (h : Tracked spec t.record) (admitted : spec.Admitted)
    (live : t.Live spec book js)
    (alone : t.record.held = none) {observed} (begun : t.begin spec observed = some (some t')) :
    Tracked spec t'.record := by
  simp only [Transition.begin, bind, bind_eq_some_iff] at begun
  obtain ⟨a, ha, begun⟩ := begun
  split at begun
  · cases begun
  split at begun
  · cases begun
  simp only [bind_eq_some_iff] at begun
  obtain ⟨step, hstep, check, hcheck, e⟩ := begun
  cases e
  have here := (live.sound.live a ha).here alone
  rw [here] at hstep
  have contains : spec.steps.contains t.record.node = true := by
    rw [← ExtTreeMap.isSome_getElem?_eq_contains, hstep]
    rfl
  have notCheck : spec.checks.contains t.record.node = false := by
    rw [← not_eq_true]
    intro named
    cases contains.symm.trans (admitted.disjoint _ named)
  have attempted : t.record.attempt.isSome = true := ha ▸ rfl
  refine h.move ⟨rfl, rfl, rfl⟩ h.restart (fun _ _ hx => by cases hx) fun node late => ?_
  have behind := h.behind node (late.back ⟨rfl, rfl, rfl⟩ id)
  refine ⟨?_, fun s hs => ?_, fun _ _ _ hx => by cases hx⟩
  · exact here_arrived (.inl rfl)
      (behind.onward attempted contains (then_followed hstep notCheck hcheck))
  · cases hs
    obtain ⟨uncapped, path⟩ := behind.standing attempted contains
    refine ⟨?_, ?_, fun _ hv => by cases hv⟩
    · exact here ▸ uncapped
    · exact here ▸ path

lemma Tracked.restage (h : Tracked spec t.record) {a} (ha : t.record.attempt = some a) {ending}
    (hending : a.ending = some ending) {ask} (staged : restage t a ending ask = some t') :
    Tracked spec t'.record := by
  simp only [Workflow.restage] at staged
  split at staged
  · exact h.stageAgentEnd (h.stageable ha hending) staged
  · cases staged
    exact h

lemma Tracked.hold (h : Tracked spec t.record) {a} (ha : t.record.attempt = some a)
    (ask : Option Asking)
    (stopped : Option Stopped) (now : Timestamp) :
    Tracked spec (t.edit fun r => { r with attempt := some (a.hold ask stopped now).1 }).record := by
  obtain ⟨asking, heldSince, askedMs, e⟩ := hold_spec a ask stopped now
  rw [e]
  refine h.keep ⟨rfl, rfl, rfl⟩ ?_
  simp only [RunRecord.place, Transition.edit, ha, map_some]

lemma Tracked.written (hd : Tracked spec d.record) (h : Tracked spec t.record) (changed : Bool) :
    Tracked spec (if changed then d.persist t else d).record := by
  split
  · exact h.persist
  · exact hd

/-- `agent::prepare_end` keeps the trail, and so does what it leaves to its caller. -/
lemma prepareEnd_tracked (admitted : spec.Admitted) (hd : Tracked spec d.record)
    (h : Tracked spec t.record)
    (live : t.Live spec book js) (alone : t.record.held = none) {decision}
    (done : prepareEnd spec d t me i = some (d', t', decision)) :
    Tracked spec d'.record ∧ ∀ r, decision = .end_ r → Tracked spec t'.record := by
  simp only [prepareEnd, bind, bind_eq_some_iff] at done
  obtain ⟨a, ha, done⟩ := done
  split at done
  · next ending hending =>
    split at done
    · cases done
      exact ⟨hd, fun _ e => by cases e⟩
    simp only [bind_eq_some_iff] at done
    obtain ⟨u, staged, e⟩ := done
    cases e
    have owned := (h.restage ha hending staged).own me
    exact ⟨owned.persist, fun _ _ => owned⟩
  have held := Tracked.hold (t := { t with now := i.observedAt }) h ha
    (if a.run.isSome then i.observed else {}).ask
    (if a.run.isSome then i.observed else {}).stopped i.observedAt
  split at done
  · next ending hends =>
    simp only [bind_eq_some_iff] at done
    obtain ⟨u, staged, done⟩ := done
    have ended := held.stageAgentEnd (agentEnding_stageable hends) staged
    split at done
    · cases done
      exact ⟨ended.persist, fun _ e => by cases e⟩
    · cases done
      exact ⟨(ended.own me).persist, fun _ _ => ended.own me⟩
  split at done
  · cases done
    exact ⟨hd.written held _, fun _ e => by cases e⟩
  obtain ⟨begun, hbegun, done⟩ := bind_eq_some_iff.mp done
  cases begun with
  | some u =>
    cases done
    have live' := Live.hold (t := { t with now := i.observedAt }) ⟨live.sound, live.owner⟩ ha
      (if a.run.isSome then i.observed else {}).ask
      (if a.run.isSome then i.observed else {}).stopped i.observedAt
    exact ⟨(held.begin admitted live' alone hbegun).persist, fun _ e => by cases e⟩
  | none =>
    cases done
    exact ⟨hd.written held _, fun _ e => by cases e⟩

section Until
variable {seen : List String} {step : UntilStep}

/-- What a held session's part of `prepare` leaves of the trail. -/
def UntilStep.Tracked (spec : WorkflowSpec) : UntilStep → Prop
  | .decided d _ _ => Workflow.Tracked spec d.record
  | .pass d t => Workflow.Tracked spec d.record ∧ Workflow.Tracked spec t.record
    ∧ t.record.Contained spec

lemma Tracked.interrupt (h : Tracked spec t.record) (sound : t.Sound spec book js) {reason}
    (interrupted : t.interrupt reason = some t') : Tracked spec t'.record := by
  simp only [Transition.interrupt, bind, bind_eq_some_iff] at interrupted
  obtain ⟨held, hheld, u, ended, restored⟩ := interrupted
  have session := sound.held held hheld
  have abandoned := sound.abandonCheck session.alone "canceled"
  exact ((h.abandonCheck session.node "canceled").turnEnd ended).restoreSession
    (abandoned.turnEnd ended)
    restored

lemma restoreSession_counts (restored : t.restoreSession = some t') :
    SameCounts t.record t'.record := by
  obtain ⟨held, -, e⟩ := restoreSession_spec restored
  subst e
  exact ⟨rfl, rfl, rfl⟩

lemma interrupt_counts {reason} (interrupted : t.interrupt reason = some t') :
    SameCounts t.record t'.record := by
  simp only [Transition.interrupt, bind, bind_eq_some_iff] at interrupted
  obtain ⟨held, -, u, ended, restored⟩ := interrupted
  have counts := restoreSession_counts restored
  rw [(turnEnd_spec ended).2, abandonCheck_record] at counts
  exact ⟨counts.grant, counts.totals, counts.fired⟩

lemma untilEnded_tracked (h : Tracked spec t.record) (sound : t.Sound spec book js)
    {outcome cause reason}
    (restart : ∀ c, cause ≠ .restart c) (due : cause = .deadline → t.record.deadlineFired = false)
    (done : untilEnded d t me i outcome cause reason = some step) : step.Tracked spec := by
  simp only [untilEnded, bind, bind_eq_some_iff] at done
  obtain ⟨u, interrupted, v, staged, e⟩ := done
  cases e
  have back := h.interrupt sound interrupted
  have fired := (interrupt_counts interrupted).fired
  have ended := back.stageAgentEnd (.plain restart (fun e => fired.trans (due e)) rfl) staged
  exact (ended.own me).persist

lemma untilMovedOn_tracked (h : Tracked spec t.record) (sound : t.Sound spec book js) {held}
    (hheld : t.record.held = some held) (done : untilMovedOn d t held = some step) :
    step.Tracked spec := by
  simp only [untilMovedOn, bind, bind_eq_some_iff] at done
  obtain ⟨u, ended, v, restored, e⟩ := done
  cases e
  have session := sound.held held hheld
  have closed := (sound.abandonCheck session.alone "canceled").waited (closeWait_waited _)
  have abandoned := (h.abandonCheck session.node "canceled").waited (closeWait_waited _)
  exact ((abandoned.turnEnd ended).restoreSession (closed.turnEnd ended) restored).persist

lemma Tracked.dropVerdict {r} (h : Tracked spec r) {s} (hs : r.held = some s) {b}
    (node : b.node = s.attempt.node) :
    Tracked spec { r with held := some { s with attempt := b, verdict := none } } := by
  refine h.move ⟨rfl, rfl, rfl⟩ h.restart h.staged fun step late => ?_
  have behind := h.behind step (late.back ⟨rfl, rfl, rfl⟩ id)
  refine ⟨behind.here, fun k hk => ?_, behind.ending⟩
  cases hk
  obtain ⟨uncapped, path, -⟩ := behind.held s hs
  exact ⟨node ▸ uncapped, node ▸ path, nofun⟩

lemma untilWaits_tracked (h : Tracked spec t.record) {held} (hheld : t.record.held = some held)
    {verdict} (done : untilWaits spec d t seen held verdict = some step) : step.Tracked spec := by
  simp only [untilWaits, bind, bind_eq_some_iff] at done
  obtain ⟨u, merged, v, ended, done⟩ := done
  have waited := mergeWait_waited merged
  have session : u.record.held = some held := by
    obtain ⟨wait, recheckAt, e⟩ := waited.record
    rw [e]
    exact hheld
  have asked := (h.waited waited).dropVerdict session (b := { held.attempt with woken := false }) rfl
  have kept : Tracked spec v.record := by
    refine Tracked.turnEnd ?_ ended
    exact asked
  split at done
  · cases done
    refine Tracked.persist ?_
    exact kept.keep ⟨rfl, rfl, rfl⟩ rfl
  · cases done
    exact kept.persist

lemma room_of_untripped {r} (grant : r.visitGrant = 0) {definition : Step}
    (room : definition.trippedVisitBound r = none) {max} (hmax : definition.maxVisits = some max) :
    r.totalOf r.node < max := by
  simp only [Step.trippedVisitBound, hmax, grant, filterMap_cons, map_some, Nat.add_zero,
    List.find?_eq_none] at room
  have first := room _ (mem_cons_self ..)
  simpa [RunRecord.totalOf] using first

lemma capRoute_target {bound visits max v}
    (routed : t.capRoute spec bound visits max = some (t', v)) :
    ∃ target, spec.target t.record.node "cap" = some target ∧ t'.record = t.record ∧
    v.target = target := by
  obtain ⟨target, htarget, e⟩ := bind_eq_some_iff.mp routed
  cases e
  exact ⟨target, htarget, rfl, rfl⟩

lemma untilPushBack_tracked (h : Tracked spec t.record) (admitted : spec.Admitted)
    (sound : t.Sound spec book js) (active : t.record.state = .active) {held}
    (hheld : t.record.held = some held) {verdict : Verdict} (hverdict : held.verdict = some verdict)
    (target : verdict.target = held.attempt.node)
    (done : untilPushBack spec d t me i verdict = some step) :
    step.Tracked spec := by
  simp only [untilPushBack, bind, bind_eq_some_iff] at done
  obtain ⟨u, restored, definition, hstep, done⟩ := done
  have closed := sound.waited (closeWait_waited t)
  have back := (h.waited (closeWait_waited t)).restoreSession closed restored
  have counts := t.closeWait_counts.trans (restoreSession_counts restored)
  obtain ⟨held', hheld', e⟩ := restoreSession_spec restored
  cases (t.closeWait_held.trans hheld).symm.trans hheld'
  have state : u.record.state = .active := by
    rw [e]
    exact (congrArg RunRecord.state t.closeWait_record).trans active
  have node : u.record.node = held.attempt.node := e ▸ rfl
  have attempt : u.record.attempt = some held.attempt := e ▸ rfl
  have alone : u.record.held = none := e ▸ rfl
  have open_ := (sound.held held hheld).open_
  have contains : spec.steps.contains u.record.node = true := by
    rw [← ExtTreeMap.isSome_getElem?_eq_contains]
    exact hstep ▸ rfl
  -- The session stands at its step with the verdict as its input.
  have stands : Tracked spec
      { u.record with key := verdict.object.key, input := some verdict.object } :=
    back.keep ⟨rfl, rfl, rfl⟩ rfl
  split at done
  · simp only [bind_eq_some_iff, Prod.exists] at done
    obtain ⟨v, route, routed, w, staged, e⟩ := done
    cases e
    obtain ⟨target, htarget, same, hroute⟩ := capRoute_target routed
    have left : Tracked spec v.record := same ▸ stands
    refine Tracked.persist (Tracked.own (left.stageAgentEnd ⟨(fun _ e => by cases e),
      (fun e => by cases e), fun other r late hr => ?_⟩ staged) me)
    cases hr
    rw [hroute]
    rcases admitted.step_target hstep (by decide) (fun e => absurd e (by decide)) htarget with
      e | e | ⟨notWait, followed, -⟩
    · subst e
      exact ⟨by decide, .inl (by decide)⟩
    · subst e
      exact ⟨by decide, .inl (by decide)⟩
    refine ⟨notWait, .inr ((left.behind other late).onward ?_ ?_ ?_)⟩
    · rw [same]
      exact attempt ▸ rfl
    · rw [same]
      exact contains
    · rw [same]
      exact followed
  · next room =>
    simp only [bind_eq_some_iff] at done
    obtain ⟨attempt', ha, v, ended, e⟩ := done
    cases e
    cases attempt.symm.trans ha
    refine Tracked.persist (Tracked.turnEnd ?_ ended)
    have step : spec.steps[u.record.node]? = some definition := hstep
    refine stands.visit admitted step (fun other late => ?_)
      (fun max hmax => room_of_untripped stands.grant room hmax) state rfl (fun other => ?_) rfl rfl rfl ?_
      rfl open_
    · have late := late.back (r := t.record) ⟨counts.grant, counts.totals, counts.fired⟩
        fun _ => active
      obtain ⟨-, -, goes⟩ := (h.behind other late).held held hheld
      rw [node, ← target]
      refine (goes verdict hverdict).resolve_left fun reserved => ?_
      rw [target, ← node] at reserved
      exact admitted.named _ (.inr contains) reserved
    · exact totalOf_bump (r := { u.record with key := verdict.object.key, input := _ }) rfl other
    · exact alone

lemma untilMoves_tracked (h : Tracked spec t.record) (admitted : spec.Admitted) {held}
    (hheld : t.record.held = some held) {verdict} (hverdict : held.verdict = some verdict)
    {definition}
    (hstep : spec.steps[held.attempt.node]? = some definition)
    (mem : verdict.target ∈ definition.then_)
    (done : untilMoves d t seen held verdict = some step) : step.Tracked spec := by
  obtain ⟨u, ended, e⟩ := bind_eq_some_iff.mp done
  cases e
  have closed := (h.waited (closeWait_waited t)).turnEnd ended
  have session : u.record.held = some held := by
    rw [(turnEnd_spec ended).2]
    exact t.closeWait_held.trans hheld
  have check := admitted.thenChecks _ definition hstep _ mem
  refine Tracked.persist
    (closed.move ⟨rfl, rfl, rfl⟩ closed.restart closed.staged fun other late => ?_)
  have behind := closed.behind other (late.back ⟨rfl, rfl, rfl⟩ id)
  obtain ⟨uncapped, path, goes⟩ := behind.held held session
  refine ⟨here_arrived (.inr (admitted.disjoint _ check)) ?_, fun k hk => ?_, behind.ending⟩
  · exact (goes verdict hverdict).resolve_left fun reserved => admitted.named _ (.inl check) reserved
  · cases hk
    exact ⟨uncapped, path, nofun⟩

lemma untilCloses_tracked (h : Tracked spec t.record) (sound : t.Sound spec book js) {held}
    (hheld : t.record.held = some held) {verdict} (hverdict : held.verdict = some verdict)
    (notWait : verdict.target ≠ "@wait") (done : untilCloses d t me i verdict = some step) :
    step.Tracked spec := by
  simp only [untilCloses, bind, bind_eq_some_iff] at done
  obtain ⟨u, restored, v, staged, e⟩ := done
  cases e
  have back := h.restoreSession sound restored
  have counts := restoreSession_counts restored
  have state : u.record.state = t.record.state := by
    obtain ⟨_, -, e⟩ := restoreSession_spec restored
    rw [e]
    rfl
  refine Tracked.persist (Tracked.own (back.stageAgentEnd ⟨(fun _ e => by cases e),
    (fun e => by cases e), fun other r late hr => ?_⟩ staged) me)
  cases hr
  obtain ⟨-, -, goes⟩ :=
    (h.behind other (late.back counts fun active => state ▸ active)).held held hheld
  exact ⟨notWait, goes verdict hverdict⟩

lemma contained_held {r : RunRecord} (sound : Workflow.Sound spec book r js) {s}
    (hs : r.held = some s) : r.Contained spec := by
  intro capped
  have none : spec.steps[r.node]? = none :=
    ExtTreeMap.getElem?_eq_none_of_contains_eq_false (sound.held s hs).node
  simp [WorkflowSpec.capped, none] at capped

/-- `until::prepare` keeps the trail. -/
lemma untilPrepare_tracked (admitted : spec.Admitted) (hd : Tracked spec d.record)
    (h : Tracked spec t.record) (sound : t.Sound spec book js) (active : t.record.state = .active)
    (done : untilPrepare spec d t me i seen = some step) : step.Tracked spec := by
  simp only [untilPrepare, bind, bind_eq_some_iff] at done
  obtain ⟨held, hheld, run, -, done⟩ := done
  obtain ⟨asking, heldSince, askedMs, e⟩ := hold_spec held.attempt i.observed.ask i.observed.stopped
    i.observedAt
  have sound' : Transition.Sound spec book js ({ t with now := i.observedAt }.edit fun r =>
      { r with held := some { held with attempt := (held.attempt.hold i.observed.ask
        i.observed.stopped i.observedAt).1 } }) :=
    Workflow.Sound.editHeld sound hheld (e ▸ rfl) (e ▸ rfl) (e ▸ rfl) (e ▸ rfl)
  have tracked : Tracked spec ({ t with now := i.observedAt }.edit fun r =>
      { r with held := some { held with attempt := (held.attempt.hold i.observed.ask
        i.observed.stopped i.observedAt).1 } }).record := by
    rw [e]
    refine h.keep ⟨rfl, rfl, rfl⟩ ?_
    simp only [RunRecord.place, Transition.edit, hheld, map_some]
  have quiet : ∀ changed, UntilStep.Tracked spec
      (.decided (if changed = true then d.persist _ else d) seen .stop) := fun changed =>
    hd.written tracked changed
  split at done
  · next due =>
    exact untilEnded_tracked tracked sound' (fun _ e => by cases e) (fun _ => deadlineDue_unfired due) done
  split at done
  · exact untilEnded_tracked tracked sound' (fun _ e => by cases e) (fun e => by cases e) done
  split at done
  · exact untilMovedOn_tracked tracked sound' rfl done
  split at done
  · cases done
    exact ⟨hd.written tracked _, tracked, contained_held sound' rfl⟩
  rename_i verdict hverdict
  split at done
  · exact untilWaits_tracked tracked rfl done
  rename_i notWait
  split at done
  · next target =>
    split at done
    · cases done
      exact quiet _
    · exact untilPushBack_tracked tracked admitted sound' active rfl hverdict target done
  obtain ⟨definition, hstep, done⟩ := bind_eq_some_iff.mp done
  split at done
  · next mem =>
    split at done
    · cases done
      exact quiet _
    · exact untilMoves_tracked tracked admitted rfl hverdict hstep mem done
  · split at done
    · cases done
      exact quiet _
    · exact untilCloses_tracked tracked sound' rfl hverdict notWait done

end Until

section Prepare
variable {l : Local} {step : NodeStep}

/-- What the preparation of a node leaves of the trail: its section is over, or there is room for a
visit. -/
def NodeStep.Tracked (spec : WorkflowSpec) : NodeStep → Prop
  | .decided d _ _ => Workflow.Tracked spec d.record
  | .pass t _ _ => Workflow.Tracked spec t.record ∧ t.record.attempt = none
    ∧ ∀ definition, spec.steps[t.record.node]? = some definition →
        definition.trippedVisitBound t.record = none

/-- A step is left without a visit. -/
lemma bypass_goes (admitted : spec.Admitted) {r : RunRecord} (contained : r.Contained spec)
    {definition} (hstep : spec.steps[r.node]? = some definition) {outcome target : String}
    (trigger : outcome = "cap" ∨ outcome = "capacity")
    (agent : outcome = "capacity" → definition.kind = some .agent)
    (goes : spec.target r.node outcome = some target) (bypass : r.Bypass spec target) :
    target ∈ reservedTargets ∨ spec.Keeps r.node target := by
  have mem : outcome ∈ ["then", "asked", "cap", "capacity"] := by
    rcases trigger with rfl | rfl <;> decide
  have agent' : outcome = "asked" ∨ outcome = "capacity" → definition.kind = some .agent := by
    rintro (e | e)
    · exact absurd (e ▸ trigger) (by decide)
    · exact agent e
  rcases admitted.step_target hstep mem agent' goes with e | e | ⟨-, followed, passed⟩
  · exact .inl (e ▸ by decide)
  · exact .inl (e ▸ by decide)
  refine .inr ⟨?_, fun capped => contained capped target bypass⟩
  rw [WorkflowSpec.Passes]
  split
  · exact passed trigger
  · exact followed

lemma prepareNode_tracked (admitted : spec.Admitted) (hd : Tracked spec d.record)
    (h : Tracked spec t.record) (attempt : t.record.attempt = none)
    (contained : t.record.Contained spec)
    (done : prepareNode spec d t i l = some step) : step.Tracked spec := by
  cases prepareNode_prepares done with
  | waits l now outcome detail wait =>
    exact Tracked.persist (Tracked.waited (t := { t with now }) h ((stepWait_waited outcome detail).edit wait))
  | gives l now hstep agent hwait waits ends goes routed =>
    refine Tracked.persist (Tracked.engineRoute (t := { t with now }) h attempt (fun _ _ => ?_) routed)
    exact bypass_goes admitted contained hstep (.inr rfl) (fun _ => agent) goes (.capacity hwait waits ends goes)
  | caps l hstep spent capped routed =>
    obtain ⟨target, goes, same, hroute⟩ := capRoute_target capped
    refine Tracked.persist (Tracked.route (same ▸ h) (same ▸ attempt) (fun _ _ => ?_) routed)
    rw [same, hroute]
    exact bypass_goes admitted contained hstep (.inl rfl) (fun e => absurd e (by decide)) goes
      (.cap hstep (spent ▸ rfl) goes)
  | passes l now error closed room =>
    rcases closed with rfl | rfl
    · exact ⟨h, attempt, room⟩
    have closed := h.waited (closeWait_waited t)
    refine ⟨closed, t.closeWait_attempt.trans attempt, ?_⟩
    rw [closeWait_record]
    exact room
  | _ => exact hd

lemma Tracked.publishCheck {r : RunRecord} (h : Tracked spec r)
    (check : spec.steps.contains r.node = false) {a : LiveAttempt} (ending : a.ending = none)
    (seq : Nat) :
    Tracked spec { r with nextSeq := seq, attempt := some a,
                          held := r.held.map fun s =>
                            { s with attempt := { s.attempt with woken := false } } } := by
  refine h.move ⟨rfl, rfl, rfl⟩ h.restart (fun b e hb he => ?_) fun node late => ?_
  · cases hb
    cases ending.symm.trans he
  · have behind := h.behind node (late.back ⟨rfl, rfl, rfl⟩ id)
    refine ⟨here_arrived (.inr check) (behind.arrived (.inr check)), fun s hs => ?_,
      fun b e v hb he => ?_⟩
    · obtain ⟨k, hk, e⟩ := map_eq_some_iff.mp hs
      cases e
      exact behind.held k hk
    · cases hb
      cases ending.symm.trans he

/-- A step's attempt begins with a visit. -/
lemma Tracked.publishStep (h : Tracked spec t.record) (admitted : spec.Admitted)
    (sound : t.Sound spec book js) (active : t.record.state = .active)
    (attempt : t.record.attempt = none)
    {definition : Step} (hstep : spec.steps[t.record.node]? = some definition)
    (room : definition.trippedVisitBound t.record = none) {a : LiveAttempt}
    (ending : a.ending = none) (seq : Nat) :
    Tracked spec { (countVisit t).record with
                     nextSeq := seq
                     attempt := some a
                     held := (countVisit t).record.held.map fun s =>
                       { s with attempt := { s.attempt with woken := false } } } := by
  have contains : spec.steps.contains t.record.node = true := by
    rw [← ExtTreeMap.isSome_getElem?_eq_contains, hstep]
    rfl
  have alone : t.record.held = none := by
    cases hs : t.record.held with
    | none => rfl
    | some s => cases contains.symm.trans (sound.held s hs).node
  have closed := h.waited (closeWait_waited t)
  have counts := t.closeWait_counts
  have node : t.closeWait.record.node = t.record.node := by rw [closeWait_record]
  have state : t.closeWait.record.state = t.record.state := by rw [closeWait_record]
  have step : spec.steps[t.closeWait.record.node]? = some definition := node ▸ hstep
  refine closed.visit admitted step
    (fun other late => ?_) (fun max hmax => ?_) (state.trans active) rfl (fun other => ?_) rfl rfl rfl ?_ rfl
    ending
  · exact (closed.behind other late).arrived (.inl (t.closeWait_attempt.trans attempt))
  · rw [counts.totals, node]
    exact room_of_untripped h.grant room hmax
  · exact totalOf_bump (r := t.closeWait.record) rfl other
  · change t.closeWait.record.held.map _ = none
    rw [closeWait_held, alone]
    rfl

lemma Stageable.ends {r ending} (cause : ending.cause = .lifecycle) (target : String)
    (ends : target ∈ ["@done", "@failed", "@user"])
    (route : ∀ v, ending.route = some v → v.target = target) :
    Stageable spec r ending where
  cause _ e := by cases cause.symm.trans e
  due e := by cases cause.symm.trans e
  route _ v _ hv := by
    rw [route v hv]
    simp only [mem_cons, not_mem_nil, or_false] at ends
    rcases ends with rfl | rfl | rfl
    all_goals exact ⟨by decide, .inl (by decide)⟩

lemma oversizedEnding_stageable (t : Transition) (error : String) :
    Stageable spec t.record (oversizedEnding t error) :=
  .ends rfl "@failed" (by decide) fun _ hv => by cases hv; rfl

lemma Tracked.stageOversized (h : Tracked spec t.record) (staged : stageOversized t l = some t') :
    Tracked spec t'.record := by
  simp only [Workflow.stageOversized] at staged
  split at staged
  · exact h.stageAgentEnd (oversizedEnding_stageable t _) staged
  · cases staged
    exact h

lemma publish_tracked (admitted : spec.Admitted) (h : Tracked spec t.record)
    (sound : t.Sound spec book js)
    (active : t.record.state = .active) (attempt : t.record.attempt = none)
    (room : ∀ definition, spec.steps[t.record.node]? = some definition →
      definition.trippedVisitBound t.record = none)
    {error : Option String} {l' : Local} {decision}
    (done : publish spec d t me i l error = some (d', l', decision)) : Tracked spec d'.record := by
  obtain ⟨v, staged, done⟩ := bind_eq_some_iff.mp done
  obtain ⟨u, hu⟩ : ∃ u, (if spec.steps.contains t.record.node then countVisit t else t) = u :=
    ⟨_, rfl⟩
  rw [hu] at staged done
  have published : Tracked spec v.record := by
    refine Tracked.stageOversized ?_ staged
    rw [← hu]
    cases hc : spec.steps.contains t.record.node with
    | true =>
      obtain ⟨definition, hstep⟩ :=
        isSome_iff_exists.mp (ExtTreeMap.isSome_getElem?_eq_contains.trans hc)
      exact h.publishStep admitted sound active attempt hstep (room definition hstep) rfl _
    | false => exact h.publishCheck hc rfl _
  split at done
  all_goals
    cases done
    exact published.persist

lemma afterBound_tracked (h : Tracked spec t.record) {again l' decision}
    (e : afterBound d t l again = (d', l', decision)) : Tracked spec d'.record := by
  obtain ⟨rfl, -, -⟩ := e
  exact h.persist

lemma prepareOn_tracked (admitted : spec.Admitted) (hd : Tracked spec d.record)
    (hds : d.Sound spec book) (h : Tracked spec t.record) (sound : t.Sound spec book d.journal)
    (active : t.record.state = .active) (contained : t.record.Contained spec) {l' decision}
    (done : prepareOn spec d t me i l = some (d', l', decision)) : Tracked spec d'.record := by
  simp only [prepareOn, bind, bind_eq_some_iff, Prod.exists] at done
  obtain ⟨bounded, due, hbound, done⟩ := done
  split at done
  · exact afterBound_tracked (h.bound admitted sound hbound) (Option.some.inj done)
  split at done
  · split at done
    · cases done
      exact hd
    obtain ⟨⟨u, settled⟩, finished, e⟩ := bind_eq_some_iff.mp done
    cases e
    exact (h.finishScript admitted sound (.plain (fun _ e => by cases e) (fun e => by cases e) rfl)
      (fun e => by cases e) finished).persist
  rename_i attempt
  split at done
  · cases done
    refine Tracked.persist ?_
    split
    · exact h.keep ⟨rfl, rfl, rfl⟩ rfl
    · exact h
  obtain ⟨node, hnode, done⟩ := bind_eq_some_iff.mp done
  have kept := prepareNode_kept hds sound hnode
  have tracked := prepareNode_tracked admitted hd h attempt contained hnode
  cases node with
  | decided d' l' decision =>
    cases done
    exact tracked
  | pass u l' error =>
    simp only [bind_eq_some_iff, Prod.exists] at done
    obtain ⟨sound', state⟩ := kept
    obtain ⟨tracked', attempt', room⟩ := tracked
    obtain ⟨bounded, due, hbound, done⟩ := done
    have timed := sound'.clock i.launchAt
    split at done
    · exact afterBound_tracked (Tracked.bound (t := { u with now := i.launchAt }) tracked' admitted
        timed hbound) (Option.some.inj done)
    · exact publish_tracked (t := { u with now := i.launchAt }) admitted tracked' timed
        (state.trans active) attempt' room done

/-- `prepare` keeps the trail. -/
lemma prepare_tracked (admitted : spec.Admitted) (hd : Tracked spec d.record)
    (hds : d.Sound spec book) (contained : d.record.Contained spec) {l' decision}
    (done : prepare spec d me i l = some (d', l', decision)) : Tracked spec d'.record := by
  simp only [prepare] at done
  split at done
  · cases done
    exact hd
  rename_i active
  have active : d.record.state = .active := not_not.mp active
  simp only [bind, bind_eq_some_iff] at done
  obtain ⟨step, hstep, done⟩ := done
  have kept := prepareHeld_kept admitted hds (.start hds i.now) rfl rfl hstep
  have tracked : step.Tracked spec := by
    simp only [prepareHeld] at hstep
    split at hstep
    · exact untilPrepare_tracked admitted hd hd (.start hds i.now) active hstep
    · cases hstep
      exact ⟨hd, hd, contained⟩
  cases step with
  | decided d' seen decision =>
    cases done
    exact tracked
  | pass e u =>
    obtain ⟨disk, journal, sound, entries, state⟩ := kept
    obtain ⟨hd', hu, contained'⟩ := tracked
    rw [← journal] at sound
    dsimp only at done
    split at done
    · next agent =>
      simp only [bind_eq_some_iff, Prod.exists] at done
      obtain ⟨d', u', decision, ended, e⟩ := done
      cases e
      obtain ⟨a, ha, kind⟩ : ∃ a, u.record.attempt = some a ∧ a.kind = .agent := by
        simpa [any_eq_true] using agent
      have owner := (sound.live a ha).kind.mp kind
      refine (prepareEnd_tracked admitted hd' hu ⟨sound, fun b hb => ?_⟩ ?_ ended).1
      · cases ha.symm.trans hb
        exact owner
      · cases hs : u.record.held with
        | none => rfl
        | some s => exact absurd owner ((sound.held s hs).alone a ha)
    · exact prepareOn_tracked admitted hd' disk hu sound (state.trans active) contained' done

end Prepare

section Results
variable {record : RunRecord} {next : Next}

lemma takeResult_tracked (admitted : spec.Admitted) (h : Tracked spec t.record)
    {attempt seen seen' result rechecked}
    (done : takeResult spec t record attempt seen result = some (t', seen', rechecked)) :
    Tracked spec t'.record := by
  simp only [takeResult, bind, bind_eq_some_iff, Prod.exists] at done
  obtain ⟨u, retry, finished, done⟩ := done
  have tracked : Tracked spec u.record := by
    simp only [finishEvaluation] at finished
    split at finished
    · exact h.finishJudge admitted finished
    · simp only [map_eq_some_iff, Prod.mk.injEq] at finished
      obtain ⟨v, checked, e, -⟩ := finished
      exact e ▸ h.finishCheck admitted checked
  split at done
  · cases done
    exact tracked.keep ⟨rfl, rfl, rfl⟩ rfl
  · cases done
    exact tracked

lemma evaluated_tracked (admitted : spec.Admitted) (hd : Tracked spec d.record)
    (hds : d.Sound spec book)
    {seen seen' result} (done : evaluated spec d i record seen result = some (d', seen', next)) :
    Tracked spec d'.record := by
  simp only [evaluated, bind, bind_eq_some_iff] at done
  obtain ⟨attempt, -, done⟩ := done
  split at done
  · cases done
    exact hd
  simp only [bind_eq_some_iff, Prod.exists] at done
  obtain ⟨bounded, due, hbound, u, seen, rechecked, taken, e⟩ := done
  cases e
  refine Tracked.persist ?_
  split at taken
  · cases taken
    exact Tracked.bound (t := { record := d.record, now := i.now }) hd admitted (.start hds i.now) hbound
  · exact takeResult_tracked (t := { record := d.record, now := i.now }) admitted hd taken

lemma commandEnded_tracked (admitted : spec.Admitted) (hd : Tracked spec d.record)
    (hds : d.Sound spec book) {result : CommandEnd}
    (done : commandEnded spec d i record result = some (d', next)) : Tracked spec d'.record := by
  simp only [commandEnded, bind, bind_eq_some_iff] at done
  obtain ⟨attempt, -, done⟩ := done
  split at done
  · cases done
    exact hd
  simp only [bind_eq_some_iff, Prod.exists] at done
  obtain ⟨u, settled, finished, e⟩ := done
  cases e
  refine Tracked.persist
    (Tracked.finishScript (t := { record := d.record, now := i.now }) hd admitted
    (.start hds i.now) ?_ ?_ finished)
  · cases result with
    | passed | failed reason => exact .plain (by simp) (by simp) rfl
    | interrupted =>
      dsimp only
      split
      · next due => exact .plain (by simp) (fun _ => deadlineDue_unfired due) rfl
      · split
        all_goals exact .plain (by simp) (by simp) rfl
  · cases result with
    | passed | failed reason => simp
    | interrupted =>
      dsimp only
      split
      · simp
      · split
        all_goals simp

lemma failedLaunchEnding_stageable {r now} (failure : LaunchFailure) :
    Stageable spec r (failedLaunchEnding record now failure) := by
  refine .ends rfl "@user" (by decide) fun v hv => ?_
  simp only [failedLaunchEnding, map_eq_some_iff] at hv
  obtain ⟨_, -, e⟩ := hv
  exact e ▸ rfl

lemma ownEnd_tracked (h : Tracked spec t.record) {reason} (e : ownEnd me d t reason = (d', next)) :
    Tracked spec d'.record := by
  obtain ⟨rfl, -⟩ := e
  exact (h.own me).persist

lemma launched_tracked (admitted : spec.Admitted) (hd : Tracked spec d.record)
    (hds : d.Sound spec book) (owner : ∀ a, record.attempt = some a → book.agent a.seq) {result}
    (done : launched spec d me i record result = some (d', next)) : Tracked spec d'.record := by
  simp only [launched, bind, bind_eq_some_iff] at done
  obtain ⟨attempt, hattempt, done⟩ := done
  split at done
  · cases done
    exact hd
  rename_i cur
  simp only [not_eq_true', not_eq_false] at cur
  obtain ⟨live, alone⟩ :=
    (Transition.Sound.start hds i.now).current_live cur (owner attempt hattempt)
  -- Without a restart the launch carries none to clear.
  have same : (if record.restart.isSome = true ∧ d.record.restart = record.restart then
      Transition.edit { record := d.record, now := i.now } fun r => { r with restart := none }
      else { record := d.record, now := i.now }) = { record := d.record, now := i.now } := by
    rw [if_neg]
    rintro ⟨restarted, e⟩
    rw [← e, hd.restart] at restarted
    cases restarted
  simp only [same] at done
  cases result with
  | error failure =>
    obtain ⟨v, staged, e⟩ := bind_eq_some_iff.mp done
    refine ownEnd_tracked ?_ (Option.some.inj e)
    simp only [stageFailed] at staged
    split at staged
    · exact Tracked.stageAgentEnd (t := { record := d.record, now := i.now }) hd
        (failedLaunchEnding_stageable failure) staged
    · cases staged
      exact hd
  | ok run =>
    have ran := Tracked.editAttempt (t := { record := d.record, now := i.now }) hd
      (f := fun a => { a with run := some run }) fun _ => rfl
    have runs := live.editAttempt (f := fun a => { a with run := some run }) (fun _ => rfl)
      (fun _ => rfl) (fun _ => rfl) fun _ => rfl
    dsimp only at done
    split at done
    · simp only [bind_eq_some_iff, Prod.exists] at done
      obtain ⟨e, v, decision, ended, done⟩ := done
      obtain ⟨disk, stop⟩ := prepareEnd_tracked admitted ran.persist ran runs alone ended
      split at done
      · cases done
        exact disk
      · exact ownEnd_tracked (stop _ rfl) (Option.some.inj done)
      · cases done
        exact disk
    · exact ownEnd_tracked ran (Option.some.inj done)

lemma finished_tracked (admitted : spec.Admitted) (hd : Tracked spec d.record)
    (hds : d.Sound spec book)
    (owner : ∀ a, record.attempt = some a → book.agent a.seq) {reason orphan}
    (done : finished spec d i record reason orphan = some (d', next)) : Tracked spec d'.record := by
  simp only [finished, bind, bind_eq_some_iff] at done
  obtain ⟨attempt, hattempt, detached, -, done⟩ := done
  split at done
  · cases done
    exact hd
  rename_i cur
  simp only [or_eq_true, not_or, not_eq_true', not_eq_false] at cur
  obtain ⟨live, alone⟩ :=
    (Transition.Sound.start hds i.now).current_live cur.1 (owner attempt hattempt)
  simp only [bind_eq_some_iff] at done
  obtain ⟨now, hnow, detaching, -, done⟩ := done
  split at done
  · cases done
    exact hd
  obtain ⟨u, settled, e⟩ := bind_eq_some_iff.mp done
  cases e
  have ran := Tracked.editAttempt (t := { record := d.record, now := i.now }) hd
    (f := fun a => { a with run := attempt.run.or orphan }) fun _ => rfl
  have runs := live.editAttempt (f := fun a => { a with run := attempt.run.or orphan })
    (fun _ => rfl) (fun _ => rfl) (fun _ => rfl) fun _ => rfl
  exact (ran.settleAgent admitted runs alone settled).persist

lemma pushed_tracked (hd : Tracked spec d.record) {queued}
    (done : pushed d i record queued = some (d', next)) : Tracked spec d'.record := by
  simp only [pushed, bind, bind_eq_some_iff] at done
  obtain ⟨attempt, -, push, -, done⟩ := done
  split at done
  · cases done
    exact hd
  split at done
  · cases done
    exact hd
  split at done
  · cases done
    exact hd
  · cases done
    refine Tracked.persist (Tracked.editAttempt (t := { record := d.record, now := i.now }) hd ?_)
    exact fun _ => rfl

end Results

section Commands
variable {next : Next}

lemma cancelAgent_tracked (hd : Tracked spec d.record) (h : Tracked spec t.record) {attempt reason}
    (done : cancelAgent d me i t attempt reason = some (d', next)) : Tracked spec d'.record := by
  simp only [cancelAgent] at done
  split at done
  · cases done
    exact hd
  simp only [bind, bind_eq_some_iff] at done
  obtain ⟨u, interrupted, v, staged, done⟩ := done
  have hu : Tracked spec u.record := by
    simp only [interruptEnding] at interrupted
    split at interrupted
    · exact h.turnEnd interrupted
    · cases interrupted
      exact h
  have ended := hu.stageAgentEnd (.plain (fun _ e => by cases e) (fun e => by cases e) rfl) staged
  split at done
  · cases done
    exact ended.persist
  · cases done
    exact (ended.own me).persist

lemma cancel_tracked (admitted : spec.Admitted) (hd : Tracked spec d.record)
    (hds : d.Sound spec book)
    {reason} (done : cancel spec d me i reason = some (d', next)) : Tracked spec d'.record := by
  simp only [cancel] at done
  split at done
  · cases done
    exact hd
  obtain ⟨u, interrupted, done⟩ := bind_eq_some_iff.mp done
  have start := Transition.Sound.start hds i.now
  obtain ⟨sound, alone, -⟩ := interruptHeld_sound start interrupted
  have hu : Tracked spec u.record := by
    simp only [interruptHeld] at interrupted
    split at interrupted
    · exact Tracked.interrupt (t := { record := d.record, now := i.now }) hd start interrupted
    · cases interrupted
      exact hd
  have closed := sound.waited (closeWait_waited u)
  have tracked := hu.waited (closeWait_waited u)
  split at done
  · exact cancelAgent_tracked hd tracked done
  obtain ⟨⟨v, settled⟩, finished, e⟩ := bind_eq_some_iff.mp done
  cases e
  have same : (u.closeWait.edit fun r => { r with restart := none }) = u.closeWait := by
    simp only [Transition.edit]
    rw [← tracked.restart]
  rw [same] at finished
  have script := tracked.finishScript admitted closed
    (.plain (fun _ e => by cases e) (fun e => by cases e) rfl) (fun e => by cases e) finished
  refine Tracked.persist ?_
  cases settled with
  | true => exact script
  | false =>
    have left := finishScript_unsettled finished
    exact script.cancelRun ⟨rfl, rfl, rfl⟩ script.restart (congrArg RunRecord.attempt left) reason

lemma wake_tracked (hd : Tracked spec d.record) {signal subscribed} :
    Tracked spec (wake spec d i signal subscribed).record := by
  simp only [wake]
  split
  · refine Tracked.persist (hd.keep ⟨rfl, rfl, rfl⟩ ?_)
    simp only [RunRecord.place, Transition.edit, Transition.push, map_map]
    rfl
  · exact hd

end Commands

end Rimz.Workflow
