import Mathlib
import Rimz.Workflow.Visits

/-!
# The laps of a run

A run of a validated definition makes a number of visits that the definition bounds, as long as it
stays on its trail. Validation does not ask for that: it takes a cycle through a step with
`max-visits` for bounded, though the engine goes round it on the step's `cap` route once the bound
is spent.
-/

namespace Rimz.Workflow
open Std Relation Rimz.Lib WorkflowSpec Transition

variable {spec : WorkflowSpec} {book : Book}

/-- Whether an act sets the visits of a run back, or extends them. -/
def Act.resets : Act → Bool
  | .restart .. | .resume .. => true
  | _ => false

section Run
variable {w : World} {p : Host}

lemma land_tracked {l result} (h : Tracked spec w.disk.record)
    (landed : ∀ disk next, result = some (disk, next) → Tracked spec disk.record) :
    Tracked spec (w.land p l result).disk.record := by
  cases result with
  | none => exact h
  | some disk => exact landed disk.1 disk.2 rfl

/-- One act of one process. -/
lemma exec_tracked (admitted : spec.Admitted) (sound : w.Sound spec book)
    (h : Tracked spec w.disk.record)
    (contained : w.disk.record.Contained spec) {act} (plain : act.resets = false) :
    Tracked spec (w.exec spec p act).disk.record := by
  have held := sound.procs p
  simp only [World.exec]
  split
  · exact h
  · split
    · next done => exact prepare_tracked admitted h sound.disk contained done
    · exact h
  · split
    · next done => exact evaluated_tracked admitted h sound.disk done
    · exact h
  · exact land_tracked h fun _ _ done => commandEnded_tracked admitted h sound.disk done
  · next record prompt l hp =>
    rw [hp] at held
    exact land_tracked h fun _ _ done =>
      launched_tracked admitted h sound.disk (fun a ha => (held a ha).1.2) done
  · exact land_tracked h fun _ _ done => pushed_tracked h done
  · next record reason l hp =>
    rw [hp] at held
    exact land_tracked h fun _ _ done =>
      finished_tracked admitted h sound.disk (fun a ha => (held a ha).2) done
  · exact h
  · exact h
  · exact land_tracked h fun _ _ done => cancel_tracked admitted h sound.disk done
  · cases plain
  · cases plain
  · exact wake_tracked h
  · exact h.keep ⟨rfl, rfl, rfl⟩ rfl
  all_goals exact h

lemma run_tracked (admitted : spec.Admitted) (sound : w.Sound spec book)
    (h : Tracked spec w.disk.record)
    (acts : List (Host × Act)) (plain : ∀ act ∈ acts, act.2.resets = false)
    (contained : ∀ before act after, acts = before ++ act :: after →
      (w.run spec before).disk.record.Contained spec) :
    Tracked spec (w.run spec acts).disk.record := by
  induction acts generalizing w book with
  | nil => exact h
  | cons act acts ih =>
    obtain ⟨book', sound'⟩ := sound.exec admitted act.1 act.2
    have tracked := exec_tracked (p := act.1) admitted sound h (contained [] act acts rfl)
      (plain act (mem_cons_self ..))
    exact ih sound' tracked (fun other mem => plain other (mem_cons_of_mem _ mem))
      fun before next after e => contained (act :: before) next after (e ▸ rfl)

end Run

/-- The step visits of a run: its launches and push-backs. -/
def RunRecord.visitCount (spec : WorkflowSpec) (r : RunRecord) : Nat :=
  (spec.steps.keys.map r.totalOf).sum

namespace WorkflowSpec

/-- The visits that the steps with `max-visits` allow together. -/
def cappedVisits (spec : WorkflowSpec) : Nat :=
  ((spec.steps.keys.filter spec.capped).map fun node =>
    (spec.steps[node]?.bind Step.maxVisits).getD 0).sum

/-- The visits of a run: those of the steps with `max-visits`, and one of each other step in a lap.
A lap ends with a visit of a step with `max-visits` or with the deadline. -/
def visitBound (spec : WorkflowSpec) : Nat :=
  spec.cappedVisits + (spec.steps.keys.filter fun node => !spec.capped node).length
    * (spec.cappedVisits + 2)

end WorkflowSpec

lemma create_tracked {outside task manual now w}
    (created : World.create spec outside task manual now = some w) : Tracked spec w.disk.record := by
  simp only [World.create] at created
  split at created
  · cases created
    have unvisited : (RunRecord.create spec task manual now).totalOf = fun _ => 0 :=
      funext fun node => by simp [RunRecord.totalOf, RunRecord.create]
    refine ⟨rfl, rfl, (fun _ _ ha => by cases ha), fun _ _ _ _ _ => ?_, fun _ _ => ?_, fun _ late => ?_⟩
    · rw [unvisited]
      exact Nat.zero_le _
    · rw [unvisited]
      exact Nat.zero_le _
    · have visited := late.visited
      cases visited
  · cases created

lemma Tracked.cappedVisits_le {r} (h : Tracked spec r) :
    ((spec.steps.keys.filter spec.capped).map r.totalOf).sum ≤ spec.cappedVisits := by
  refine List.sum_le_sum fun node mem => ?_
  have capped := (mem_filter.mp mem).2
  simp only [WorkflowSpec.capped, any_eq_true] at capped
  obtain ⟨step, hstep, some⟩ := capped
  obtain ⟨max, hmax⟩ := isSome_iff_exists.mp some
  rw [hstep, bind_some, hmax]
  exact h.capped node step max hstep hmax

lemma Tracked.laps_le {r} (h : Tracked spec r) : r.laps spec ≤ spec.cappedVisits + 1 := by
  have capped := h.cappedVisits_le
  rw [RunRecord.laps]
  split <;> omega

/-- The invariant bounds the visits. -/
lemma Tracked.visitCount_le {r} (h : Tracked spec r) : r.visitCount spec ≤ spec.visitBound := by
  have split : r.visitCount spec = ((spec.steps.keys.filter spec.capped).map r.totalOf).sum
      + ((spec.steps.keys.filter fun node => !spec.capped node).map r.totalOf).sum := by
    rw [RunRecord.visitCount, ← List.sum_append, ← map_append]
    exact (((List.filter_append_perm spec.capped spec.steps.keys).map r.totalOf).sum_eq).symm
  have others : ((spec.steps.keys.filter fun node => !spec.capped node).map r.totalOf).sum
      ≤ (spec.steps.keys.filter fun node => !spec.capped node).length * (spec.cappedVisits + 2) := by
    rw [← List.length_map (f := r.totalOf), ← Nat.nsmul_eq_mul]
    refine List.sum_le_card_nsmul _ _ fun total mem => ?_
    obtain ⟨node, mem, e⟩ := mem_map.mp mem
    obtain ⟨key, uncapped⟩ := mem_filter.mp mem
    have bound := h.uncapped node ((capped_or_uncapped (ExtTreeMap.mem_keys.mp key)).resolve_left
      fun capped => by simp [capped] at uncapped)
    have laps := h.laps_le
    omega
  have capped := h.cappedVisits_le
  rw [split, WorkflowSpec.visitBound]
  omega

/-- A run of a validated definition that is neither restarted nor resumed makes a bounded number of
visits, as long as no step with `max-visits` is left on a route that leads back to it through a step
without one. -/
theorem visits_bounded {outside : List Issue} {task : Option String} {manual : Bool}
    {now : Timestamp} {w : World} (created : World.create spec outside task manual now = some w)
    (acts : List (Host × Act)) (plain : ∀ act ∈ acts, act.2.resets = false)
    (contained : ∀ before act after, acts = before ++ act :: after →
      (w.run spec before).disk.record.Contained spec) :
    (w.run spec acts).disk.record.visitCount spec ≤ spec.visitBound := by
  obtain ⟨admitted, sound⟩ := World.create_sound created
  exact (run_tracked admitted sound (create_tracked created) acts plain contained).visitCount_le

/-- A review that is answered by a repair. -/
def reviewCheck : Check where
  shell := some "make review"
  on := (∅ : ExtTreeMap String Route).insert "pass" ⟨"@done", none⟩ |>.insert "fail" ⟨"repair", none⟩

def draftStep : Step where
  shell := some "make draft"
  timeout := some 60
  then_ := ["review"]

/-- A repair, made once and then left on its `cap` route. -/
def repairStep (cap : Option String) : Step where
  shell := some "make repair"
  timeout := some 60
  then_ := ["review"]
  maxVisits := some 1
  on := { cap }

/-- A draft is reviewed and repaired once; the second failure takes the repair's `cap` route. -/
def draftAndRepair (cap : Option String) : WorkflowSpec where
  start := "draft"
  steps := (∅ : ExtTreeMap String Step).insert "draft" draftStep |>.insert "repair" (repairStep cap)
  checks := (∅ : ExtTreeMap String Check).insert "review" reviewCheck

def failObject : Value := .object [("outcome", .string "fail")]

def failed : Evaluation := { object := .ok failObject }

/-- The acts up to the first lap: a draft, its failed review, the one repair and its failed
review. -/
def firstLap : List (Host × Act) :=
  [(0, .advance), (0, .prepare (.atInstant 0)), (0, .commandEnded (.atInstant 0) .passed),
    (0, .prepare (.atInstant 0)), (0, .evaluated (.atInstant 0) failed), (0, .prepare (.atInstant 0)),
    (0, .commandEnded (.atInstant 0) .passed), (0, .prepare (.atInstant 0)),
    (0, .evaluated (.atInstant 0) failed), (0, .prepare (.atInstant 0))]

/-- Without a `cap` route the second failure parks the run. -/
def repairOnce : WorkflowSpec := draftAndRepair none

lemma repairOnce_capped {node} (h : repairOnce.capped node = true) : node = "repair" := by
  simp only [WorkflowSpec.capped, repairOnce, draftAndRepair, get_insert] at h
  split at h
  · next e => exact e.symm
  · split at h
    · cases h
    · simp at h

/-- The run ends where the repair is passed by. -/
lemma repairOnce_contained (r : RunRecord) : r.Contained repairOnce := by
  have closed : ∀ target ∈ ["@user", "@failed"], repairOnce.uncapped target = false
      ∧ repairOnce.capped target = false ∧ repairOnce.followed (fun _ => true) target = [] := by
    decide +kernel
  have ends : ∀ target ∈ ["@user", "@failed"], ∀ node, ¬repairOnce.Loops node target := by
    intro target mem node loop
    obtain ⟨step, uncapped, path, -⟩ := loop
    obtain ⟨noStep, uncapped', noEdge⟩ := closed target mem
    rcases ReflTransGen.cases_head path with e | ⟨next, move, -⟩
    · cases noStep.symm.trans (e ▸ uncapped)
    · rw [Passes, uncapped', if_neg Bool.false_ne_true, noEdge] at move
      cases move
  have cap : repairOnce.target "repair" "cap" = some "@user" := by decide +kernel
  have capacity : repairOnce.target "repair" "capacity" = some "@failed" := by decide +kernel
  intro capped target bypass
  have node := repairOnce_capped capped
  cases bypass with
  | cap _ _ goes =>
    rw [node] at goes
    cases cap.symm.trans goes
    exact ends _ (by decide) _
  | capacity _ _ _ goes =>
    rw [node] at goes
    cases capacity.symm.trans goes
    exact ends _ (by decide) _

/-- A run that makes its one repair and parks. -/
theorem visits_bounded_repaired_once : ∃ w, World.create repairOnce [] none false 0 = some w
    ∧ (w.run repairOnce firstLap).disk.record.state = .parked
    ∧ (w.run repairOnce firstLap).disk.record.visitCount repairOnce = 2
    ∧ (w.run repairOnce firstLap).disk.record.visitCount repairOnce ≤ repairOnce.visitBound := by
  refine ⟨_, rfl, rfl, rfl, ?_⟩
  exact @visits_bounded repairOnce [] none false 0 _ rfl firstLap (by decide) fun _ _ _ _ =>
    repairOnce_contained _

/-- With the draft on that route the definition passes validation. -/
def capEscape : WorkflowSpec := draftAndRepair (some "draft")

def capObject : Value := .object [("outcome", .string "cap"), ("step", .string "repair"),
  ("bound", .string "max-visits"), ("visits", .integer 1), ("max", .integer 1),
  ("routed_by", .string "fail")]

/-- The record once the repair's bound is spent. -/
def lapRecord (node : String) (input : Value) (drafts : StepVisits) (seq : Nat)
    (prev : Option PreviousAttempt) (attempt : Option LiveAttempt) : RunRecord where
  node := node
  enteredAt := 0
  input := some input
  visits := (∅ : ExtTreeMap String StepVisits).insert "draft" drafts
    |>.insert "repair" ⟨1, [((some "fail", none), 1)]⟩
  deadline := none
  nextSeq := seq
  prevAttempt := prev
  attempt := attempt

def lapAttempt (node : String) (seq : Nat) (visit : Option Nat) : LiveAttempt :=
  { kind := .script, lifecycle := .turn, seq, node, visit, startedAt := 0, host := 0 }

/-- The visits after one more draft. -/
def drafted (drafts : StepVisits) : StepVisits := drafts.bump (some "cap", none)

def drafting (drafts : StepVisits) (seq : Nat) (prev : Option PreviousAttempt) : RunRecord :=
  lapRecord "draft" capObject (drafted drafts) (seq + 1) prev
    (some (lapAttempt "draft" seq ((drafted drafts).forBucket (some "cap", none))))

def draftEnd (drafts : StepVisits) (seq : Nat) : PreviousAttempt where
  step := "draft"
  outcome := .ended
  seq := seq
  visit := (drafted drafts).forBucket (some "cap", none)
  key := none
  routedBy := some "cap"
  startedAt := 0
  endedAt := 0
  handle := none
  runId := none

def reviewing (drafts : StepVisits) (seq : Nat) (prev : Option PreviousAttempt) : RunRecord :=
  lapRecord "review" capObject drafts (seq + 1) prev (some (lapAttempt "review" seq none))

section Lap
-- `cbv` evaluates with equation lemmas of core functions that only some modules of Mathlib
-- generate.
variable (drafts : StepVisits) (seq : Nat) (prev : Option PreviousAttempt) (js : List JournalEntry)
  (seen : List String)

lemma lap_draft : (prepare capEscape ⟨lapRecord "draft" capObject drafts seq prev none, js⟩ 0
      (.atInstant 0) ⟨seen, {}⟩).map (fun r => (r.1.record, r.2))
    = some (drafting drafts seq prev, ⟨[], {}⟩, .evaluate (drafting drafts seq prev)) := by
  cbv

lemma lap_drafted : (commandEnded capEscape ⟨drafting drafts seq prev, js⟩ (.atInstant 0)
      (drafting drafts seq prev) .passed).map (fun r => (r.1.record, r.2))
    = some (lapRecord "review" capObject (drafted drafts) (seq + 1) (some (draftEnd drafts seq)) none,
        .advance) := by
  cbv

lemma lap_review : (prepare capEscape ⟨lapRecord "review" capObject drafts seq prev none, js⟩ 0
      (.atInstant 0) ⟨[], {}⟩).map (fun r => (r.1.record, r.2))
    = some (reviewing drafts seq prev, ⟨["review"], {}⟩, .evaluate (reviewing drafts seq prev)) := by
  cbv

lemma lap_capped : (prepare capEscape ⟨lapRecord "repair" failObject drafts seq prev none, js⟩ 0
      (.atInstant 0) ⟨["review"], {}⟩).map (fun r => (r.1.record, r.2))
    = some (lapRecord "draft" capObject drafts seq prev none, ⟨["repair", "review"], {}⟩, .again) := by
  cbv

lemma review_routes : ((capEscape.edges "review").any fun edge => edge.outcome = "fail") = true := by
  decide +kernel

lemma review_target : capEscape.target "review" "fail" = some "repair" := by decide +kernel

lemma normalize_failed :
    normalizeObject failObject reviewCheck none (capEscape.edges "review") = .ok failObject := by
  simp [normalizeObject, failObject, Value.text, Value.get, Field.asStr, review_routes,
    reservedOutcomes]

lemma answered_failed {t : Transition} (node : t.record.node = "review")
    (key : t.record.key = none) : t.answered capEscape reviewCheck (.ok failObject)
      = some ⟨failObject, "fail", "repair", .user, .check⟩ := by
  have outcome : (failObject.text "outcome").getD "" = "fail" := rfl
  simp only [Transition.answered, Except.bind, node, key, normalize_failed, outcome, review_target]
  rfl

lemma reset_failed (t : Transition) : t.resetOutcomes capEscape seq "fail" = t := by
  have steps : capEscape.steps.toList = [("draft", draftStep), ("repair", repairStep (some "draft"))] :=
    rfl
  have reset : ∀ (step : String) (definition : Step), definition.maxVisitsPerOutcome = none →
      t.resetStep seq "fail" step definition = t := by
    intro step definition none
    simp only [Transition.resetStep, none]
    cases t.record.visits[step]? <;> rfl
  rw [Transition.resetOutcomes, steps, foldl_cons, foldl_cons, List.foldl_nil,
    reset _ _ rfl, reset _ _ rfl]

/-- The failed review takes its route. -/
lemma finishCheck_failed : (Transition.finishCheck capEscape
      { record := reviewing drafts seq prev, now := 0 } seq (.ok failObject)).map Transition.record
    = some (lapRecord "repair" failObject drafts (seq + 1) prev none) := by
  set t : Transition := { record := reviewing drafts seq prev, now := 0 } with ht
  have check : capEscape.checks[t.record.node]? = some reviewCheck := by
    change capEscape.checks["review"]? = _
    rfl
  have current : t.current seq = true := by
    simp [Transition.current, ht, reviewing, lapRecord, lapAttempt]
  have answered := answered_failed (t := t) rfl rfl
  have holds : t.holds capEscape reviewCheck ⟨failObject, "fail", "repair", .user, .check⟩
      = ⟨failObject, "fail", "repair", .user, .check⟩ := rfl
  have attempt : t.record.attempt = some (lapAttempt "review" seq none) := rfl
  rw [Transition.finishCheck, if_pos current]
  simp only [check, answered, holds, attempt, bind, bind_some, reset_failed]
  cbv

lemma lap_reviewed : (evaluated capEscape ⟨reviewing drafts seq prev, js⟩ (.atInstant 0)
      (reviewing drafts seq prev) ["review"] failed).map (fun r => (r.1.record, r.2))
    = some (lapRecord "repair" failObject drafts (seq + 1) prev none, ["review"], .advance) := by
  have bound : Transition.bound capEscape { record := reviewing drafts seq prev, now := 0 } false
      = some ({ record := reviewing drafts seq prev, now := 0 }, false) := by cbv
  have finished := finishCheck_failed drafts seq prev
  simp only [map_eq_some_iff] at finished
  obtain ⟨t, finished, e⟩ := finished
  have taken : takeResult capEscape { record := reviewing drafts seq prev, now := 0 }
      (reviewing drafts seq prev) (lapAttempt "review" seq none) ["review"] failed
      = some (t, ["review"], false) := by
    have evaluation : finishEvaluation capEscape { record := reviewing drafts seq prev, now := 0 }
        (lapAttempt "review" seq none) failed = some (t, false) := by
      change (Transition.finishCheck capEscape _ seq (.ok failObject)).map _ = _
      rw [finished]
      rfl
    simp only [takeResult, evaluation, bind, bind_some]
    rfl
  have attempt : (reviewing drafts seq prev).attempt = some (lapAttempt "review" seq none) := rfl
  have current : Transition.current { record := reviewing drafts seq prev, now := 0 } seq =
    true := by
    simp [Transition.current, reviewing, lapRecord, lapAttempt]
  simp only [evaluated, attempt, bind, bind_some, Reading.atInstant, bound]
  rw [if_neg (by simpa [lapAttempt] using current)]
  simp only [false_eq_true, if_false, taken, bind_some, map_some]
  rw [Disk.persist, e]
  rfl

end Lap

/-- A run that stands before its draft, with the repair's bound spent. -/
structure Lapped (drafts : StepVisits) (w : World) : Prop where
  stands : ∃ seq prev, w.disk.record = lapRecord "draft" capObject drafts seq prev none
  ready : ∃ seen, w.procs 0 = .ready ⟨seen, {}⟩

/-- The acts of one lap: a draft, its failed review, and the repair passed by. -/
def lap : List (Host × Act) :=
  [(0, .prepare (.atInstant 0)), (0, .commandEnded (.atInstant 0) .passed),
    (0, .prepare (.atInstant 0)),
    (0, .evaluated (.atInstant 0) failed), (0, .prepare (.atInstant 0))]

section Acts
variable {spec : WorkflowSpec} {w : World} {record r q : RunRecord} {l : Local} {i : Reading}
  {next : Next}

lemma exec_prepare {k decision} (stands : w.disk.record = r) (ready : w.procs 0 = .ready l)
    (h : ∀ js, (prepare spec ⟨r, js⟩ 0 i l).map (fun p => (p.1.record, p.2)) = some (q, k, decision)) :
    (w.exec spec 0 (.prepare i)).disk.record = q
      ∧ (w.exec spec 0 (.prepare i)).procs 0 = decision.proc spec k := by
  have h := h w.disk.journal
  rw [← stands] at h
  simp only [map_eq_some_iff, Prod.exists, Prod.mk.injEq] at h
  obtain ⟨d, l', decision, done, rfl, rfl, rfl⟩ := h
  simp [World.exec, ready, done, World.goto]

lemma exec_commandEnded {result} (stands : w.disk.record = r)
    (stepping : w.procs 0 = .stepping record l)
    (h : ∀ js, (commandEnded spec ⟨r, js⟩ i record result).map (fun p => (p.1.record, p.2)) = some (q, next)) :
    (w.exec spec 0 (.commandEnded i result)).disk.record = q
      ∧ (w.exec spec 0 (.commandEnded i result)).procs 0 = next.proc (some l) := by
  have h := h w.disk.journal
  rw [← stands] at h
  simp only [map_eq_some_iff, Prod.exists, Prod.mk.injEq] at h
  obtain ⟨d, next, done, rfl, rfl⟩ := h
  simp [World.exec, stepping, done, World.land, World.goto]

lemma exec_evaluated {result seen} (stands : w.disk.record = r)
    (evaluating : w.procs 0 = .evaluating record l)
    (h : ∀ js, (evaluated spec ⟨r, js⟩ i record l.seen result).map (fun p => (p.1.record, p.2))
      = some (q, seen, next)) :
    (w.exec spec 0 (.evaluated i result)).disk.record = q
      ∧ (w.exec spec 0 (.evaluated i result)).procs 0 = next.proc (some { l with seen }) := by
  have h := h w.disk.journal
  rw [← stands] at h
  simp only [map_eq_some_iff, Prod.exists, Prod.mk.injEq] at h
  obtain ⟨d, seen, next, done, rfl, rfl, rfl⟩ := h
  simp [World.exec, evaluating, done, World.goto]

end Acts

/-- Each lap visits the draft once more. -/
lemma Lapped.lap {drafts w} (h : Lapped drafts w) :
    Lapped (drafted drafts) (w.run capEscape lap) := by
  obtain ⟨seq, prev, before⟩ := h.stands
  obtain ⟨seen, ready⟩ := h.ready
  have draft : capEscape.steps.contains "draft" = true := rfl
  have review : ¬capEscape.steps.contains "review" = true := by decide +kernel
  obtain ⟨before, stepping⟩ := exec_prepare before ready fun js => lap_draft drafts seq prev js seen
  have stepping := stepping.trans (if_pos draft)
  obtain ⟨before, ready⟩ :=
    exec_commandEnded before stepping fun js => lap_drafted drafts seq prev js
  obtain ⟨before, evaluating⟩ := exec_prepare before ready fun js => lap_review _ _ _ js
  have evaluating := evaluating.trans (if_neg review)
  obtain ⟨before, ready⟩ := exec_evaluated before evaluating fun js => lap_reviewed _ _ _ js
  obtain ⟨before, ready⟩ := exec_prepare before ready fun js => lap_capped _ _ _ js
  exact ⟨⟨_, _, before⟩, ⟨_, ready⟩⟩

lemma firstLap_lapped : ∃ w, World.create capEscape [] none false 0 = some w
    ∧ Lapped ⟨1, [((none, none), 1)]⟩ (w.run capEscape firstLap) := by
  exact ⟨_, rfl, ⟨_, _, rfl⟩, ⟨_, rfl⟩⟩

lemma lapped_visitCount {drafts w} (h : Lapped drafts w) :
    w.disk.record.visitCount capEscape = drafts.total + 1 := by
  obtain ⟨seq, prev, e⟩ := h.stands
  have keys : capEscape.steps.keys = ["draft", "repair"] := rfl
  rw [RunRecord.visitCount, keys, e]
  rfl

lemma lap_plain : ∀ act ∈ firstLap ++ lap, act.2.resets = false := by decide

lemma laps_run {w drafts} (h : Lapped drafts w) (n : Nat) :
    ∃ acts, (∀ act ∈ acts, act.2.resets = false)
      ∧ (w.run capEscape acts).disk.record.visitCount capEscape = drafts.total + n + 1 := by
  induction n generalizing w drafts with
  | zero => exact ⟨[], (fun _ mem => by cases mem), lapped_visitCount h⟩
  | succ n ih =>
    obtain ⟨acts, plain, count⟩ := ih h.lap
    refine ⟨lap ++ acts, fun act mem => ?_, ?_⟩
    · rcases mem_append.mp mem with mem | mem
      · exact lap_plain act (mem_append_right _ mem)
      · exact plain act mem
    · rw [World.run, foldl_append]
      have once : (drafted drafts).total = drafts.total + 1 := rfl
      rw [World.run, World.run] at count
      omega

/-- The definition passes validation, and no number bounds the visits of its runs. -/
theorem visits_unbounded_past_cap : ∃ w, World.create capEscape [] none false 0 = some w
    ∧ ∀ N, ∃ acts, (∀ act ∈ acts, act.2.resets = false)
      ∧ N < (w.run capEscape acts).disk.record.visitCount capEscape := by
  obtain ⟨w, created, lapped⟩ := firstLap_lapped
  refine ⟨w, created, fun N => ?_⟩
  obtain ⟨acts, plain, count⟩ := laps_run lapped N
  refine ⟨firstLap ++ acts, fun act mem => ?_, ?_⟩
  · rcases mem_append.mp mem with mem | mem
    · exact lap_plain act (mem_append_left _ mem)
    · exact plain act mem
  · rw [World.run, foldl_append]
    rw [World.run, World.run] at count
    omega
end Rimz.Workflow
