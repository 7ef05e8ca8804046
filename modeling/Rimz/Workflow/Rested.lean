import Rimz.Workflow.Sessions

/-!
# Turn ends at rest

When the leader of an until session rests at a turn end, `prepare` hands that turn end to the first
check of the step, unless the session is over or the turn end is the one it judged last. The mark of
a judged turn end outlives the discard of its check: a leader that stirs without a new turn, and
rests again, is left unanswered.
-/

namespace Rimz.Workflow
open Std Transition

variable {spec : WorkflowSpec} {book : Book} {d d' : Disk} {t t' : Transition} {a : LiveAttempt}
  {leader : LeaderTurn} {me : Host} {i : Reading}

/-- The leader of a live until attempt rests at a turn end: the session is not held, has no staged
ending and no push-back to submit, and the reading shows the leader at rest with no open ask or
stop. -/
structure RunRecord.RestsAt (r : RunRecord) (i : Reading) (a : LiveAttempt) (leader : LeaderTurn) :
    Prop where
  alone : r.held = none
  live : r.attempt = some a
  until_ : a.lifecycle = .until_
  open_ : a.ending = none
  queued : ∀ push, a.push = some push → push.queued = true
  rests : (observe i a).eligible = some leader

/-- The session of an attempt is held under the first check of its step, with a turn end to
judge. -/
structure RunRecord.HandsOver (spec : WorkflowSpec) (r : RunRecord) (a : LiveAttempt)
    (turn : TurnEnd) : Prop where
  slot : r.attempt = none
  held : ∃ h, r.held = some h ∧ h.attempt.seq = a.seq ∧ h.attempt.judged = some turn ∧
    h.verdict = none
  first : ∃ step, spec.steps[a.node]? = some step ∧ step.then_.head? = some r.node

/-- A session that may judge the turn end: its deadline is not due, its agent runs, and the turn end
is not the one it judged last. -/
structure RunRecord.MayJudge (r : RunRecord) (i : Reading) (a : LiveAttempt) (turn : TurnEnd) :
    Prop where
  inTime : r.deadlineDue i.observedAt = false
  runs : i.observed.status = .pending ∨ i.observed.status = .running
  new : a.judged ≠ some turn

/-- An until session ends by its deadline and by the end of its agent only. -/
lemma agentEnding_until {observed hostLive} (check : spec.checks[t.record.node]? = none)
    (staying : t.record.attempt.map LiveAttempt.lifecycle = some .until_)
    (until_ : a.lifecycle = .until_) (run : a.run.isSome = true) :
    agentEnding spec t a observed hostLive = none ↔
      t.record.deadlineDue t.now = false ∧ (observed.status = .pending ∨ observed.status = .running) := by
  have timeless : timeoutAt spec t.record = none := by
    obtain ⟨b, hb, staying⟩ := map_eq_some_iff.mp staying
    simp [timeoutAt, check, hb, staying, StepLifecycle.isTurn]
  have runs : observedOutcome observed a.lifecycle
    ((spec.edges a.node).any fun edge => edge.outcome = "asked")
      = none ↔ observed.status = .pending ∨ observed.status = .running := by
    rw [until_, observedOutcome]
    cases observed.status <;> simp [StepLifecycle.isTurn]
  have started : a.run.isNone = false := by rw [← Option.not_isSome, run]; rfl
  rw [← runs, agentEnding, timeless, started]
  cases t.record.deadlineDue t.now <;> simp

section PrepareEnd
variable (ha : t.record.attempt = some a) (open_ : a.ending = none) (until_ : a.lifecycle = .until_)
  (queued : ∀ push, a.push = some push → push.queued = true) (run : a.run.isSome = true)
  (rests : i.observed.eligible = some leader) (check : spec.checks[t.record.node]? = none)
include ha open_ until_ run check

/-- `agent::prepare_end` goes on only when it has judged the turn end. -/
lemma prepareEnd_again (rests : i.observed.eligible = some leader)
    (done : prepareEnd spec d t me i = some (d', t', .again)) :
    t.record.MayJudge i a leader.end_ := by
  obtain ⟨asking, heldSince, askedMs, e⟩ :=
    hold_spec a i.observed.ask i.observed.stopped i.observedAt
  simp only [prepareEnd, bind, bind_eq_some_iff, ha, Option.some.injEq, exists_eq_left', open_, run,
    if_true, e] at done
  split at done
  · obtain ⟨u, -, done⟩ := bind_eq_some_iff.mp done
    split at done <;> cases done
  rename_i ends
  rw [agentEnding_until ?_ ?_ until_ run] at ends
  obtain ⟨inTime, runs⟩ := ends
  split at done
  · cases done
  · obtain ⟨begun, hbegun, done⟩ := bind_eq_some_iff.mp done
    cases begun with
    | none => cases done
    | some u =>
      refine ⟨inTime, runs, fun old => ?_⟩
      simp [Transition.begin, Transition.edit, rests, old] at hbegun
  · exact check
  · exact congrArg some until_

include queued rests in
variable (d me) in
/-- `agent::prepare_end` hands a turn end it may judge to the first check. -/
lemma prepareEnd_handsOver (judges : t.record.MayJudge i a leader.end_) {step first}
    (hstep : spec.steps[a.node]? = some step) (hfirst : step.then_.head? = some first) :
    ∃ u, prepareEnd spec d t me i = some (d.persist u, u, .again) ∧
    u.record.HandsOver spec a leader.end_ := by
  obtain ⟨asking, heldSince, askedMs, e⟩ :=
    hold_spec a i.observed.ask i.observed.stopped i.observedAt
  have settled : ¬(a.push.any fun push => !push.queued) = true := by
    intro any
    obtain ⟨push, hpush, unqueued⟩ := (any_eq_true _ _).mp any
    simp [queued push hpush] at unqueued
  simp only [prepareEnd, bind, bind_some, ha, run, if_true, e]
  split
  · next ending hending => cases open_.symm.trans hending
  split
  · next ending ends =>
    refine absurd ?_ (Option.some_ne_none ending)
    rw [← ends, agentEnding_until ?_ ?_ until_ run]
    · exact ⟨judges.inTime, judges.runs⟩
    · exact check
    · exact congrArg some until_
  · rw [if_neg settled]
    simp only [Transition.begin, Transition.edit, bind_some, rests, until_, ne_eq, not_true,
      false_or, judges.new, if_false, hstep, hfirst, bind]
    exact ⟨_, rfl, rfl, ⟨_, rfl, rfl, rfl, rfl⟩, step, hstep, hfirst⟩

end PrepareEnd

/-- A live agent attempt beside no held session is left to `agent::prepare_end`. -/
lemma prepare_eq_prepareEnd (active : d.record.state = .active) (alone : d.record.held = none)
    (ha : d.record.attempt = some a) (agent : a.kind = .agent) (spec : WorkflowSpec) (me : Host)
    (i : Reading) (l : Local) : ∃ l', prepare spec d me i l =
      (prepareEnd spec d { record := d.record, now := i.now } me i).map fun x => (x.1, l', x.2.2) := by
  simp only [prepare, active, ne_eq, not_true, if_false, prepareHeld, alone, Option.isSome_none,
    false_eq_true, bind, bind_some, ha, any_some, agent, decide_true, if_true]
  cases prepareEnd spec d { record := d.record, now := i.now } me i with
  | none => exact ⟨l, rfl⟩
  | some x => exact ⟨_, rfl⟩

/-- In every state of every run of a workflow, when the leader of a live until attempt rests at a
turn end, the next `prepare` hands that turn end to the first check of the step exactly when the
session may judge it. -/
theorem rest_judged_iff {outside : List Issue} {task : Option String} {manual : Bool}
    {now : Timestamp}
    {w : World} (created : World.create spec outside task manual now = some w)
    (acts : List (Host × Act))
    (disk : (w.run spec acts).disk = d) (resting : d.record.RestsAt i a leader) (l : Local) :
    (∃ d' l', prepare spec d me i l = some (d', l', .again) ∧ d'.record.HandsOver spec a leader.end_) ↔
      d.record.MayJudge i a leader.end_ := by
  obtain ⟨alone, ha, until_, open_, queued, rests⟩ := resting
  obtain ⟨admitted, start⟩ := World.create_sound created
  obtain ⟨book, sound⟩ := start.run admitted acts
  have sound : d.Sound spec book := disk ▸ sound.disk
  have live := sound.live a ha
  -- Only an attempt with a run is observed.
  have run : a.run.isSome = true := by
    by_contra none
    simp [observe, none, Observed.eligible] at rests
  have rests : i.observed.eligible = some leader := by simpa [observe, run] using rests
  have agent := live.kind.mpr (live.run run)
  have active : d.record.state = .active := by
    by_contra idle
    cases (sound.idle idle).1.symm.trans ha
  -- The session stands at its agent step, whose first check is named.
  obtain ⟨step, hstep⟩ : ∃ step, spec.steps[a.node]? = some step := by
    cases hstep : spec.steps[a.node]? with
    | some step => exact ⟨step, rfl⟩
    | none =>
      refine absurd (live.node.symm.trans agent) (attemptKind_check ?_)
      rw [← ExtTreeMap.isSome_getElem?_eq_contains, hstep]
      rfl
  obtain ⟨first, hfirst⟩ : ∃ first, step.then_.head? = some first :=
    ne_none_iff_exists'.mp fun none => admitted.thenNonempty _ step hstep (List.head?_eq_none_iff.mp none)
  have check : spec.checks[d.record.node]? = none := by
    rw [← live.here alone]
    refine ExtTreeMap.getElem?_eq_none_of_contains_eq_false (Bool.eq_false_iff.mpr fun named => ?_)
    have none := admitted.disjoint _ named
    rw [← ExtTreeMap.isSome_getElem?_eq_contains, hstep] at none
    cases none
  obtain ⟨l', prepares⟩ := prepare_eq_prepareEnd active alone ha agent spec me i l
  rw [prepares]
  constructor
  · rintro ⟨d', l'', done, -⟩
    obtain ⟨x, ended, e⟩ := map_eq_some_iff.mp done
    obtain ⟨d'', t', decision⟩ := x
    cases e
    exact prepareEnd_again (t := { record := d.record, now := i.now }) ha open_ until_ run check rests ended
  · intro judges
    obtain ⟨u, ended, hands⟩ := prepareEnd_handsOver d me
      (t := { record := d.record, now := i.now }) ha open_ until_ queued run rests check judges hstep
      hfirst
    rw [ended]
    obtain ⟨restart, e⟩ := d.persist_record u
    refine ⟨_, _, rfl, ?_⟩
    rw [e]
    exact ⟨hands.slot, hands.held, hands.first⟩

/-- The reviewer is launched and works. -/
def reviewerAtWork : List (Host × Act) :=
  [(0, .advance), (0, .prepare (.atInstant 1)),
    (0, .launched (.atInstant 2) (.ok ⟨"run", "reviewer"⟩))]

/-- The first turn end is judged. -/
theorem rest_judged_iff_first : ∃ w d d' l', World.create reviewUntilGreen [] none false 0 = some w
    ∧ (w.run reviewUntilGreen reviewerAtWork).disk = d
    ∧ prepare reviewUntilGreen d 0 (.rested 6 0) {} = some (d', l', .again) ∧
    d'.record.node = "test" := by
  have facts : ∃ w d a, World.create reviewUntilGreen [] none false 0 = some w
      ∧ (w.run reviewUntilGreen reviewerAtWork).disk = d ∧ d.record.RestsAt (.rested 6 0) a ⟨firstTurn, true⟩
      ∧ d.record.MayJudge (.rested 6 0) a firstTurn ∧ a.node = "review" :=
    ⟨_, _, _, rfl, rfl, ⟨rfl, rfl, rfl, rfl, nofun, rfl⟩, ⟨rfl, .inr rfl, nofun⟩, rfl⟩
  obtain ⟨w, d, a, created, disk, resting, judges, node⟩ := facts
  obtain ⟨d', l', prepared, hands⟩ :=
    (rest_judged_iff created reviewerAtWork disk resting {}).mpr judges
  refine ⟨w, d, d', l', created, disk, prepared, ?_⟩
  obtain ⟨step, hstep, first⟩ := hands.first
  rw [node] at hstep
  cases hstep
  exact (Option.some.inj first).symm

/-- The leader stirs at its turn end, without a new turn. -/
def Reading.stirring (now : Timestamp) : Reading :=
  { Reading.atInstant now with observed := { status := .running, turn := some ⟨firstTurn, false⟩ } }

/-- The leader stirs before the check of its first turn end has run, and rests at that turn end
again. -/
def stirred : List (Host × Act) :=
  reviewerAtWork ++ [(0, .advance), (0, .prepare (.rested 6 0)), (0, .prepare (.stirring 7))]

/-- That turn end stays without an answer: nothing was pushed back for it, and no check is run. -/
theorem rested_turn_unanswered :
    ∃ w d d' l' a, World.create reviewUntilGreen [] none false 0 = some w
    ∧ (w.run reviewUntilGreen stirred).disk = d ∧ d.record.RestsAt (.rested 8 0) a ⟨firstTurn, true⟩
    ∧ pushBacks (actions d.journal) = [] ∧ d.record.deadline = none
    ∧ prepare reviewUntilGreen d 0 (.rested 8 0) {} = some (d', l', .stop) :=
  ⟨_, _, _, _, _, rfl, rfl, ⟨rfl, rfl, rfl, rfl, nofun, rfl⟩, rfl, rfl, rfl⟩

end Rimz.Workflow
