import Rimz.Workflow.Interleavings
import Rimz.Workflow.Trail

/-!
# The visits of a run are bounded

A lap of a run ends with a visit of a step with `max-visits` or with the deadline. Within a lap a
step without `max-visits` is visited once: a second visit would close a cycle of its trail. The
invariant counts the laps by the visits of the bounded steps, so it needs no history.
-/

namespace Rimz.Workflow
open Std Relation Rimz.Lib WorkflowSpec

/-- How often a step was visited: its launches and push-backs. -/
def RunRecord.totalOf (r : RunRecord) (node : String) : Nat :=
  (r.visits[node]?.map StepVisits.total).getD 0

/-- How many laps have ended. -/
def RunRecord.laps (spec : WorkflowSpec) (r : RunRecord) : Nat :=
  ((spec.steps.keys.filter spec.capped).map r.totalOf).sum + if r.deadlineFired then 1 else 0

/-- Whether the live attempt is a step's. -/
def RunRecord.standing (spec : WorkflowSpec) (r : RunRecord) : Bool :=
  r.attempt.isSome && spec.steps.contains r.node

/-- The run has come from a step along its trail: to the record's node, to the step of a held
session and to where its verdict or a staged ending leads. -/
structure Behind (spec : WorkflowSpec) (step : String) (r : RunRecord) : Prop where
  here : if r.standing spec then spec.capped r.node = false ∧ ReflTransGen spec.Keeps step r.node
    else TransGen spec.Keeps step r.node
  held : ∀ s, r.held = some s → spec.capped s.attempt.node = false
    ∧ ReflTransGen spec.Keeps step s.attempt.node
    ∧ ∀ v, s.verdict = some v → v.target ∈ reservedTargets ∨ TransGen spec.Keeps step v.target
  ending : ∀ a e v, r.attempt = some a → a.ending = some e → e.route = some v →
    v.target ≠ "@wait" ∧ (v.target ∈ reservedTargets ∨ TransGen spec.Keeps step v.target)

lemma here_standing {spec step} {r : RunRecord} (attempt : r.attempt.isSome = true)
    (contains : spec.steps.contains r.node = true)
    (h : spec.capped r.node = false ∧ ReflTransGen spec.Keeps step r.node) :
    if r.standing spec then spec.capped r.node = false ∧ ReflTransGen spec.Keeps step r.node
    else TransGen spec.Keeps step r.node := by
  rw [RunRecord.standing, attempt, contains]
  exact h

lemma not_standing {spec} {r : RunRecord}
    (away : r.attempt = none ∨ spec.steps.contains r.node = false) : r.standing spec = false := by
  rcases away with e | e
  · rw [RunRecord.standing, e]
    rfl
  · rw [RunRecord.standing, e, Bool.and_false]

lemma here_arrived {spec step} {r : RunRecord}
    (away : r.attempt = none ∨ spec.steps.contains r.node = false)
    (h : TransGen spec.Keeps step r.node) :
    if r.standing spec then spec.capped r.node = false ∧ ReflTransGen spec.Keeps step r.node
    else TransGen spec.Keeps step r.node := by
  rw [not_standing away]
  exact h

lemma Behind.arrived {spec step r} (h : Behind spec step r)
    (away : r.attempt = none ∨ spec.steps.contains r.node = false) :
    TransGen spec.Keeps step r.node := by
  have here := h.here
  rw [not_standing away] at here
  exact here

lemma Behind.standing {spec step r} (h : Behind spec step r) (attempted : r.attempt.isSome = true)
    (contains : spec.steps.contains r.node = true) :
    spec.capped r.node = false ∧ ReflTransGen spec.Keeps step r.node := by
  have here := h.here
  rw [RunRecord.standing, attempted, contains] at here
  exact here

lemma Behind.onward {spec step target r} (h : Behind spec step r)
    (attempted : r.attempt.isSome = true) (contains : spec.steps.contains r.node = true)
    (followed : target ∈ spec.followed (fun _ => true) r.node) : TransGen spec.Keeps step target := by
  obtain ⟨uncapped, path⟩ := h.standing attempted contains
  refine .tail' path ⟨?_, fun hc => by cases uncapped.symm.trans hc⟩
  rw [WorkflowSpec.Passes, uncapped, if_neg Bool.false_ne_true]
  exact followed

/-- A step without `max-visits` that the run has visited in this lap. -/
structure Late (spec : WorkflowSpec) (r : RunRecord) (step : String) : Prop where
  uncapped : spec.uncapped step = true
  active : r.state = .active
  visited : r.totalOf step = r.laps spec + 1

/-- The invariant of a run that is neither restarted nor resumed. -/
structure Tracked (spec : WorkflowSpec) (r : RunRecord) : Prop where
  grant : r.visitGrant = 0
  restart : r.restart = none
  staged : ∀ a e, r.attempt = some a → a.ending = some e →
    (∀ c, e.cause ≠ .restart c) ∧ (e.cause = .deadline → r.deadlineFired = false)
  capped : ∀ (node : String) (step : Step) (max : Nat), spec.steps[node]? = some step →
    step.maxVisits = some max → r.totalOf node ≤ max
  uncapped : ∀ node, spec.uncapped node = true → r.totalOf node ≤ r.laps spec + 1
  behind : ∀ node, Late spec r node → Behind spec node r

variable {spec : WorkflowSpec} {r q : RunRecord}

/-- An edit that counts nothing. -/
structure SameCounts (r q : RunRecord) : Prop where
  grant : q.visitGrant = r.visitGrant
  totals : q.totalOf = r.totalOf
  fired : q.deadlineFired = r.deadlineFired

lemma SameCounts.laps (h : SameCounts r q) : q.laps spec = r.laps spec := by
  rw [RunRecord.laps, RunRecord.laps, h.totals, h.fired]

lemma SameCounts.trans {u} (h : SameCounts r q) (h' : SameCounts q u) : SameCounts r u :=
  ⟨h'.grant.trans h.grant, h'.totals.trans h.totals, h'.fired.trans h.fired⟩

lemma Late.back {node} (h : Late spec q node) (counts : SameCounts r q)
    (active : q.state = .active → r.state = .active) : Late spec r node :=
  ⟨h.uncapped, active h.active, by rw [← counts.totals, ← counts.laps]; exact h.visited⟩

lemma Tracked.move (h : Tracked spec r) (counts : SameCounts r q) (restart : q.restart = none)
    (staged : ∀ a e, q.attempt = some a → a.ending = some e →
      (∀ c, e.cause ≠ .restart c) ∧ (e.cause = .deadline → q.deadlineFired = false))
    (behind : ∀ node, Late spec q node → Behind spec node q) : Tracked spec q where
  grant := counts.grant.trans h.grant
  restart := restart
  staged := staged
  capped node step max hstep hmax := by
    rw [counts.totals]
    exact h.capped node step max hstep hmax
  uncapped node hnode := by
    rw [counts.totals, counts.laps]
    exact h.uncapped node hnode
  behind := behind

/-- Where a run stands. -/
def RunRecord.place (r : RunRecord) :=
  (r.node, r.state, r.restart, r.attempt.map LiveAttempt.ending,
    r.held.map fun s => (s.attempt.node, s.verdict))

lemma place_attempt (place : q.place = r.place) {a} (ha : q.attempt = some a) :
    ∃ b, r.attempt = some b ∧ b.ending = a.ending := by
  simp only [RunRecord.place, Prod.mk.injEq, ha, map_some] at place
  exact map_eq_some_iff.mp place.2.2.2.1.symm

/-- The invariant reads nothing but the counts and the place. -/
lemma Tracked.keep (h : Tracked spec r) (counts : SameCounts r q) (place : q.place = r.place) :
    Tracked spec q := by
  have parts := place
  simp only [RunRecord.place, Prod.mk.injEq] at parts
  obtain ⟨node, state, restart, attempt, held⟩ := parts
  refine h.move counts (restart.trans h.restart) (fun a e ha he => ?_) fun step late => ?_
  · obtain ⟨b, hb, ending⟩ := place_attempt place ha
    obtain ⟨cause, due⟩ := h.staged b e hb (ending.trans he)
    exact ⟨cause, fun hc => counts.fired.trans (due hc)⟩
  · have behind := h.behind step (late.back counts fun hs => state ▸ hs)
    refine ⟨?_, fun s hs => ?_, fun a e v ha he hv => ?_⟩
    · have standing : q.standing spec = r.standing spec := by
        have some : q.attempt.isSome = r.attempt.isSome := by
          rw [← isSome_map (f := LiveAttempt.ending), attempt, isSome_map]
        rw [RunRecord.standing, RunRecord.standing, some, node]
      rw [standing, node]
      exact behind.here
    · rw [hs, map_some] at held
      obtain ⟨s', hs', e⟩ := map_eq_some_iff.mp held.symm
      simp only [Prod.mk.injEq] at e
      rw [← e.1, ← e.2]
      exact behind.held s' hs'
    · obtain ⟨b, hb, ending⟩ := place_attempt place ha
      exact behind.ending b e v hb (ending.trans he) hv

lemma Tracked.stop (h : Tracked spec r) (counts : SameCounts r q) (restart : q.restart = none)
    (attempt : q.attempt = none) (stopped : q.state ≠ .active) : Tracked spec q :=
  h.move counts restart (fun _ _ ha => by cases attempt.symm.trans ha) fun _ late =>
    absurd late.active stopped

lemma laps_fired (totals : q.totalOf = r.totalOf) (unfired : r.deadlineFired = false)
    (fired : q.deadlineFired = true) : q.laps spec = r.laps spec + 1 := by
  simp [RunRecord.laps, totals, unfired, fired]

lemma Tracked.not_late (h : Tracked spec r) (totals : q.totalOf = r.totalOf)
    (unfired : r.deadlineFired = false) (fired : q.deadlineFired = true) (node : String) :
    ¬Late spec q node := by
  intro late
  have bound := h.uncapped node late.uncapped
  have visited := late.visited
  rw [totals, laps_fired totals unfired fired] at visited
  omega

lemma Tracked.fire (h : Tracked spec r) (grant : q.visitGrant = r.visitGrant)
    (totals : q.totalOf = r.totalOf) (unfired : r.deadlineFired = false)
    (fired : q.deadlineFired = true) (restart : q.restart = none) (attempt : q.attempt = none) :
    Tracked spec q := by
  refine ⟨grant.trans h.grant, restart, fun _ _ ha => ?_, fun node step max hstep hmax => ?_,
    fun node hnode => ?_, fun node late => absurd late (h.not_late totals unfired fired node)⟩
  · cases attempt.symm.trans ha
  · rw [totals]
    exact h.capped node step max hstep hmax
  · have bound := h.uncapped node hnode
    rw [totals, laps_fired totals unfired fired]
    omega

lemma sum_map_bump {α} [DecidableEq α] (f : α → Nat) (a : α) (l : List α) :
    (l.map fun x => f x + if x = a then 1 else 0).sum = (l.map f).sum + l.count a := by
  induction l with
  | nil => rfl
  | cons x l ih =>
    simp only [map_cons, sum_cons, ih, List.count_cons, beq_iff_eq]
    omega

lemma nodup_keys (m : ExtTreeMap String Step) : m.keys.Nodup :=
  m.distinct_keys.imp fun distinct e => distinct (by simp [e])

lemma laps_bump {step} (hstep : spec.steps.contains step = true)
    (totals : ∀ node, q.totalOf node = r.totalOf node + if node = step then 1 else 0)
    (fired : q.deadlineFired = r.deadlineFired) :
    q.laps spec = r.laps spec + if spec.capped step then 1 else 0 := by
  have count : (spec.steps.keys.filter spec.capped).count step = if spec.capped step then 1 else 0 := by
    split
    · next capped =>
      rw [List.count_filter capped]
      exact List.count_eq_one_of_mem (nodup_keys _) (ExtTreeMap.mem_keys.mpr hstep)
    · next capped =>
      exact count_eq_zero.mpr fun mem => capped (mem_filter.mp mem).2
  rw [RunRecord.laps, RunRecord.laps, funext totals, sum_map_bump, count, fired]
  omega

lemma capped_or_uncapped {node} (h : spec.steps.contains node = true) :
    spec.capped node = true ∨ spec.uncapped node = true := by
  rw [← ExtTreeMap.isSome_getElem?_eq_contains] at h
  obtain ⟨step, hstep⟩ := isSome_iff_exists.mp h
  cases hmax : step.maxVisits with
  | none => exact .inr (by simp [WorkflowSpec.uncapped, hstep, hmax])
  | some max => exact .inl (by simp [WorkflowSpec.capped, hstep, hmax])

/-- A visit of a step that the run has reached: it ends the lap, or is the step's first one in
it. -/
lemma Tracked.visit (h : Tracked spec r) (admitted : spec.Admitted) {step definition}
    (hstep : spec.steps[step]? = some definition)
    (reached : ∀ node, Late spec r node → TransGen spec.Keeps node step)
    (room : ∀ max, definition.maxVisits = some max → r.totalOf step < max)
    (active : r.state = .active) (grant : q.visitGrant = r.visitGrant)
    (totals : ∀ node, q.totalOf node = r.totalOf node + if node = step then 1 else 0)
    (fired : q.deadlineFired = r.deadlineFired) (restart : q.restart = r.restart)
    (node : q.node = step) (held : q.held = none) {a : LiveAttempt} (attempt : q.attempt = some a)
    (ending : a.ending = none) : Tracked spec q := by
  have contains : spec.steps.contains step = true := by
    rw [← ExtTreeMap.isSome_getElem?_eq_contains, hstep]
    rfl
  have laps : q.laps spec = _ := laps_bump contains totals fired
  refine ⟨grant.trans h.grant, restart.trans h.restart, fun b e hb he => ?_,
    fun other definition' max hother hmax => ?_, fun other uncapped => ?_, fun other late => ?_⟩
  · cases attempt.symm.trans hb
    cases ending.symm.trans he
  · rw [totals]
    by_cases e : other = step
    · subst e
      cases hstep.symm.trans hother
      rw [if_pos rfl]
      exact room max hmax
    · rw [if_neg e]
      exact h.capped other definition' max hother hmax
  · have bound := h.uncapped other uncapped
    rw [totals, laps]
    by_cases e : other = step
    · subst e
      rw [if_pos rfl, capped_eq_false uncapped, if_neg Bool.false_ne_true]
      -- A second visit in the lap would have come back along the trail.
      have first : r.totalOf other ≠ r.laps spec + 1 := fun visited =>
        admitted.no_loop uncapped (reached other ⟨uncapped, active, visited⟩)
      omega
    · rw [if_neg e]
      omega
  · have visited := late.visited
    have bound := h.uncapped other late.uncapped
    rw [totals, laps] at visited
    have uncapped : spec.capped step = false := by
      by_contra capped
      rw [not_eq_false] at capped
      have ne : other ≠ step := by
        rintro rfl
        cases (capped_eq_false late.uncapped).symm.trans capped
      rw [if_pos capped, if_neg ne] at visited
      omega
    have path : ReflTransGen spec.Keeps other step := by
      by_cases e : other = step
      · exact e ▸ .refl
      · refine (reached other ⟨late.uncapped, active, ?_⟩).to_reflTransGen
        rw [if_neg e, uncapped] at visited
        simpa using visited
    refine ⟨?_, (fun s hs => by cases held.symm.trans hs), fun b e v hb he hv => ?_⟩
    · refine here_standing (by rw [attempt]; rfl) (node ▸ contains) ?_
      rw [node]
      exact ⟨uncapped, path⟩
    · cases attempt.symm.trans hb
      cases ending.symm.trans he

section Routes
variable {t t' : Transition} {target : String} {object : Value} {reason : ParkReason}

lemma Transition.Routed.counts (routed : Transition.Routed t target object t') :
    SameCounts t.record t'.record ∧ t'.record.restart = t.record.restart
      ∧ t'.record.attempt = none ∧ t'.record.held = t.record.held := by
  obtain ⟨state, node, enteredAt, park, terminalAt, wait, recheckAt, retry, context, key, input,
    e⟩ :=
    routed.record
  rw [e]
  exact ⟨⟨rfl, rfl, rfl⟩, rfl, rfl, rfl⟩

/-- A step that was left: the run ends, or has come on to the target. -/
lemma Tracked.leave (h : Tracked spec r) (counts : SameCounts r t.record)
    (active : t.record.state = .active → r.state = .active) (restart : t.record.restart = none)
    (attempt : t.record.attempt = none) (held : t.record.held = none)
    (goes : ∀ node, Late spec r node →
      target ≠ "@wait" ∧ (target ∈ reservedTargets ∨ TransGen spec.Keeps node target))
    (routed : t.route spec target object reason = some t') : Tracked spec t'.record := by
  rcases Transition.route_spec routed with ⟨terminal, e⟩ | ⟨s, hs, -⟩ | ⟨-, moved⟩
  · subst e
    refine h.stop counts restart attempt fun active => ?_
    rw [active] at terminal
    cases terminal
  · cases held.symm.trans hs
  obtain ⟨counts', restart', attempt', held'⟩ := moved.counts
  refine h.move (counts.trans counts') (restart'.trans restart)
    (fun _ _ ha => by cases attempt'.symm.trans ha) fun node late => ?_
  have state : t.record.state = .active := by
    cases moved.lands with
    | wait _ hs | node _ _ hs => exact hs.symm.trans late.active
    | done _ hs | failed _ hs | user _ hs => cases hs.symm.trans late.active
  obtain ⟨notWait, there⟩ := goes node (late.back (counts.trans counts') fun _ => active state)
  refine ⟨?_, (fun s hs => by cases (held'.trans held).symm.trans hs),
    fun _ _ _ ha => by cases attempt'.symm.trans ha⟩
  refine here_arrived (.inl attempt') ?_
  cases moved.lands with
  | wait => exact absurd rfl notWait
  | done _ hs | failed _ hs | user _ hs => cases hs.symm.trans late.active
  | node fresh hn _ =>
    rw [hn]
    exact there.resolve_left fresh

/-- A route from a node where no step stands: a check's answer, or a step that was not visited. -/
lemma Tracked.route (h : Tracked spec t.record) (attempt : t.record.attempt = none)
    (goes : ∀ node, Late spec t.record node → target ∈ reservedTargets ∨ spec.Keeps t.record.node target)
    (routed : t.route spec target object reason = some t') : Tracked spec t'.record := by
  have arrived : ∀ node, Late spec t.record node → TransGen spec.Keeps node t.record.node := by
    exact fun node late => (h.behind node late).arrived (.inl attempt)
  have on : ∀ node, Late spec t.record node →
      target ∈ reservedTargets ∨ TransGen spec.Keeps node target := fun node late =>
    (goes node late).imp_right fun move => (arrived node late).tail move
  rcases Transition.route_spec routed with ⟨-, e⟩ | ⟨s, hs, e⟩ | ⟨held, moved⟩
  · exact e ▸ h
  · subst e
    refine h.move (q := { t.record with held := _, attempt := none }) ⟨rfl, rfl, rfl⟩ h.restart
      (fun _ _ ha => by cases ha) fun node late => ?_
    have late := late.back (r := t.record) ⟨rfl, rfl, rfl⟩ fun active => active
    refine ⟨?_, fun s' hs' => ?_, fun _ _ _ ha => by cases ha⟩
    · exact arrived node late
    · cases hs'
      obtain ⟨uncapped, path, -⟩ := (h.behind node late).held s hs
      refine ⟨uncapped, path, fun v hv => ?_⟩
      cases hv
      exact on node late
  by_cases wait : target = "@wait"
  · obtain ⟨counts, restart, attempt', held'⟩ := moved.counts
    refine h.move counts (restart.trans h.restart) (fun _ _ ha => by cases attempt'.symm.trans ha)
      fun node late => ?_
    have lands := moved.lands
    cases lands with
    | wait hn hs =>
      refine ⟨?_, (fun s hs => by cases (held'.trans held).symm.trans hs),
        fun _ _ _ ha => by cases attempt'.symm.trans ha⟩
      refine here_arrived (.inl attempt') ?_
      rw [hn]
      exact arrived node (late.back counts fun active => hs ▸ active)
    | done | failed | user => exact absurd wait (by decide)
    | node fresh =>
      rw [wait] at fresh
      exact absurd (by decide) fresh
  · exact h.leave ⟨rfl, rfl, rfl⟩ id h.restart attempt held (fun node late => ⟨wait, on node late⟩)
      routed

end Routes

section Edits
variable {t t' : Transition}

lemma Tracked.waited (h : Tracked spec t.record) (w : Transition.Waited t t') :
    Tracked spec t'.record := by
  obtain ⟨wait, recheckAt, e⟩ := w.record
  rw [e]
  exact h.keep ⟨rfl, rfl, rfl⟩ rfl

lemma Tracked.drop (h : Tracked spec r) (check : spec.steps.contains r.node = false) :
    Tracked spec { r with attempt := none } := by
  refine h.move ⟨rfl, rfl, rfl⟩ h.restart (fun _ _ ha => by cases ha) fun node late => ?_
  have behind := h.behind node (late.back ⟨rfl, rfl, rfl⟩ id)
  exact ⟨here_arrived (.inl rfl) (behind.arrived (.inr check)), behind.held,
    fun _ _ _ ha => by cases ha⟩

lemma Tracked.abandonCheck (h : Tracked spec t.record)
    (check : spec.steps.contains t.record.node = false)
    (outcome : String) : Tracked spec (t.abandonCheck outcome).record := by
  rw [abandonCheck_record]
  exact h.drop check

lemma Tracked.engineRoute (h : Tracked spec t.record) (attempt : t.record.attempt = none)
    {outcome target object reason}
    (goes : ∀ node, Late spec t.record node → target ∈ reservedTargets ∨ spec.Keeps t.record.node target)
    (routed : t.engineRoute spec outcome object target reason = some t') : Tracked spec t'.record :=
  Tracked.route (t := t.push none (.route outcome (t.engineObject object))) h attempt goes routed

lemma Tracked.routeDeadline (h : Tracked spec r) (counts : SameCounts r t.record)
    (unfired : r.deadlineFired = false) (restart : t.record.restart = none)
    (attempt : t.record.attempt = none) {outcome target : String} {object : Value}
    {reason : ParkReason}
    (routed : (t.edit fun r => { r with deadlineFired := true }).engineRoute spec outcome object target
      reason = some t') : Tracked spec t'.record := by
  have fired : Tracked spec (t.edit fun r => { r with deadlineFired := true }).record :=
    h.fire counts.grant counts.totals unfired rfl restart attempt
  have lapped : ∀ node, ¬Late spec (t.edit fun r => { r with deadlineFired := true }).record node :=
    h.not_late counts.totals unfired rfl
  exact fired.engineRoute attempt (fun node late => absurd late (lapped node)) routed

lemma Transition.closeWait_counts (t : Transition) : SameCounts t.record t.closeWait.record := by
  rw [Transition.closeWait_record]
  exact ⟨rfl, rfl, rfl⟩

lemma Tracked.cancelRun (h : Tracked spec r) (counts : SameCounts r t.record)
    (restart : t.record.restart = none) (attempt : t.record.attempt = none)
    (reason : Option String) : Tracked spec (t.cancelRun reason).record :=
  h.stop ⟨counts.grant, counts.totals, counts.fired⟩ restart attempt nofun

lemma totalOf_insert {visits node step} {v : ExtTreeMap String StepVisits}
    (e : q.visits = v.insert step visits) :
    q.totalOf node = if step = node then visits.total
    else (v[node]?.map StepVisits.total).getD 0 := by
  rw [RunRecord.totalOf, e, get_insert]
  split <;> rfl

lemma totalOf_bump {step bucket}
    (e : q.visits = r.visits.insert step ((r.visits[step]?.getD {}).bump bucket))
    (node : String) : q.totalOf node = r.totalOf node + if node = step then 1 else 0 := by
  rw [totalOf_insert e]
  by_cases same : step = node
  · subst same
    rw [if_pos rfl, if_pos rfl, RunRecord.totalOf]
    cases r.visits[step]? <;> rfl
  · rw [if_neg same, if_neg (Ne.symm same)]
    rfl

lemma resetStep_counts (t : Transition) (seq : Nat) (outcome step : String) (definition : Step) :
    SameCounts t.record (t.resetStep seq outcome step definition).record
      ∧ (t.resetStep seq outcome step definition).record.place = t.record.place
      ∧ (t.resetStep seq outcome step definition).record.attempt = t.record.attempt := by
  simp only [Transition.resetStep]
  cases hv : t.record.visits[step]? with
  | none => exact ⟨⟨rfl, rfl, rfl⟩, rfl, rfl⟩
  | some visits =>
    dsimp only
    split
    · refine ⟨⟨rfl, funext fun node => ?_, rfl⟩, rfl, rfl⟩
      rw [totalOf_insert (q := _) rfl]
      split
      · next e =>
        subst e
        rw [RunRecord.totalOf, hv]
        rfl
      · rfl
    · exact ⟨⟨rfl, rfl, rfl⟩, rfl, rfl⟩

lemma Tracked.resetOutcomes (h : Tracked spec t.record) (seq : Nat) (outcome : String) :
    Tracked spec (t.resetOutcomes spec seq outcome).record
      ∧ (t.resetOutcomes spec seq outcome).record.attempt = t.record.attempt
      ∧ (t.resetOutcomes spec seq outcome).record.node = t.record.node := by
  simp only [Transition.resetOutcomes]
  generalize spec.steps.toList = steps
  induction steps generalizing t with
  | nil => exact ⟨h, rfl, rfl⟩
  | cons step steps ih =>
    obtain ⟨counts, place, attempt⟩ := resetStep_counts t seq outcome step.1 step.2
    obtain ⟨tracked, attempt', node⟩ := ih (h.keep counts place)
    simp only [RunRecord.place, Prod.mk.injEq] at place
    exact ⟨tracked, attempt'.trans attempt, node.trans place.1⟩

lemma set_text {v : Value} {name other} (ne : name ≠ other) (field : Field) :
    (v.set name field).text other = v.text other := by
  cases v with
  | object fields =>
    simp only [Value.set, Value.text, Value.get, List.find?_cons, decide_eq_false ne]
    rw [List.find?_filter]
    congr 3
    funext f
    by_cases e : f.1 = other
    · simp [e, Ne.symm ne]
    · simp [e]
  | _ => rfl

/-- No answer of a check is taken for the deadline. -/
lemma normalizeObject_outcome {object answer : Value} {check key} {edges : List Edge}
    (h : normalizeObject object check key edges = .ok answer) :
    (answer.text "outcome").getD "" ≠ "deadline" := by
  simp only [normalizeObject] at h
  split at h
  · next fields =>
    split at h
    · cases h
    rename_i outcome houtcome
    have text : ∀ field, ((Value.object fields).set "key" field).text "outcome" = some outcome :=
      fun field => (set_text (by decide) field).trans houtcome
    split at h
    · cases h
    rename_i free
    have notDeadline : outcome ≠ "deadline" := by
      rintro rfl
      exact free (.inl ⟨by decide, by simp⟩)
    split at h
    · cases h
    split at h
    · cases h
    split at h
    · split at h
      · cases h
      · cases h
        rw [houtcome]
        exact notDeadline
    · cases h
      rw [text]
      exact notDeadline
    · cases h
      rw [houtcome]
      exact notDeadline
  · cases h

/-- Where the answer of a check leads. -/
lemma answered_target (admitted : spec.Admitted) {check object}
    (hcheck : spec.checks.contains t.record.node = true) {a}
    (h : t.answered spec check object = some a) : (t.holds spec check a).target ∈ reservedTargets
      ∨ spec.Keeps t.record.node (t.holds spec check a).target := by
  have target : a.target ∈ reservedTargets ∨ spec.Keeps t.record.node a.target := by
    simp only [Transition.answered] at h
    split at h
    · next answer hanswer =>
      obtain ⟨target, htarget, e⟩ := bind_eq_some_iff.mp h
      cases e
      refine admitted.check_target hcheck htarget ?_
      cases object with
      | error reason => cases hanswer
      | ok object => exact normalizeObject_outcome hanswer
    · obtain ⟨target, htarget, e⟩ := bind_eq_some_iff.mp h
      cases e
      exact admitted.check_target hcheck htarget (by decide)
  simp only [Transition.holds]
  split
  · split
    · exact .inl (mem_cons_self ..)
    · exact target
  · exact target

lemma checks_contains {node check} (h : spec.checks[node]? = some check) :
    spec.checks.contains node = true := by
  rw [← ExtTreeMap.isSome_getElem?_eq_contains, h]
  rfl

section
variable (h : Tracked spec t.record)
include h

lemma Tracked.finishCheck (admitted : spec.Admitted) {seq object}
    (done : t.finishCheck spec seq object = some t') : Tracked spec t'.record := by
  simp only [Transition.finishCheck] at done
  split at done
  · simp only [bind, bind_eq_some_iff] at done
    obtain ⟨check, hcheck, answer, hanswer, a, -, done⟩ := done
    have contains := checks_contains hcheck
    have goes := answered_target admitted contains hanswer
    have dropped := h.drop (admitted.disjoint _ contains)
    -- The resets and the row of an invalid answer move nothing.
    have reset : ∀ p : Prop, ∀ _ : Decidable p, ∀ u : Transition, Tracked spec u.record →
        u.record.attempt = none → u.record.node = t.record.node → ∀ outcome,
        Tracked spec (if p then u.resetOutcomes spec seq outcome else u).record
          ∧ (if p then u.resetOutcomes spec seq outcome else u).record.attempt = none
          ∧ (if p then u.resetOutcomes spec seq outcome else u).record.node = t.record.node := by
      intro p _ u hu attempt node outcome
      split
      · obtain ⟨tracked, attempt', node'⟩ := hu.resetOutcomes seq outcome
        exact ⟨tracked, attempt'.trans attempt, node'.trans node⟩
      · exact ⟨hu, attempt, node⟩
    obtain ⟨tracked, attempt, node⟩ := reset _ _ ((t.edit fun r => { r with attempt := none }).push
      (some seq) (.evaluation (t.holds spec check answer).origin (t.holds spec check answer).outcome
        (t.holds spec check answer).object a.startedAt t.now none)) dropped rfl rfl
      (t.holds spec check answer).outcome
    split at done
    · refine Tracked.route (t := Transition.push _ _ _) ?_ ?_ (fun _ _ => ?_) done
      · exact tracked
      · exact attempt
      · exact node.symm ▸ goes
    · refine Tracked.route tracked attempt (fun _ _ => ?_) done
      exact node.symm ▸ goes
  · cases done
    exact h

lemma Tracked.failJudge (check : spec.steps.contains t.record.node = false)
    {seq a failure reason resetAt retry}
    (done : t.failJudge spec seq a failure reason resetAt = some (t', retry)) :
    Tracked spec t'.record := by
  have node : t.closeWait.record.node = t.record.node := by rw [Transition.closeWait_record]
  have dropped : Tracked spec { t.closeWait.record with attempt := none, recheckAt := none } :=
    ((h.waited t.closeWait_waited).drop (node ▸ check)).keep ⟨rfl, rfl, rfl⟩ rfl
  simp only [Transition.failJudge] at done
  split at done
  · cases done
    exact dropped
  split at done
  · cases done
    exact dropped.keep ⟨rfl, rfl, rfl⟩ rfl
  split at done
  · cases done
    exact dropped.keep ⟨rfl, rfl, rfl⟩ rfl
  simp only [map_eq_some_iff, Prod.mk.injEq] at done
  obtain ⟨u, routed, e, -⟩ := done
  subst e
  refine Tracked.route ?_ ?_ (fun _ _ => .inl ?_) routed
  · exact dropped
  · rfl
  · decide

lemma Tracked.finishJudge (admitted : spec.Admitted) {seq result retry}
    (done : t.finishJudge spec seq result = some (t', retry)) : Tracked spec t'.record := by
  simp only [Transition.finishJudge] at done
  split at done
  · simp only [bind, bind_eq_some_iff] at done
    obtain ⟨a, -, check, hcheck, done⟩ := done
    split at done
    · obtain ⟨u, finished, e⟩ := bind_eq_some_iff.mp done
      cases e
      have retried : Tracked spec (t.edit fun r => { r with checkRetryContext := none }).record :=
        h.keep ⟨rfl, rfl, rfl⟩ rfl
      have answered : Tracked spec u.record := retried.finishCheck admitted finished
      exact answered
    · exact h.failJudge (admitted.disjoint _ (checks_contains hcheck)) done
  · cases done
    exact h

/-- A held session takes the attempt slot again. -/
lemma Tracked.restoreSession {book js} (sound : t.Sound spec book js)
    (restored : t.restoreSession = some t') : Tracked spec t'.record := by
  obtain ⟨held, hheld, e⟩ := Transition.restoreSession_spec restored
  subst e
  have session := sound.held held hheld
  refine h.move ⟨rfl, rfl, rfl⟩ h.restart (fun a e ha he => ?_) fun node late => ?_
  · cases ha
    cases session.open_.symm.trans he
  · have behind := (h.behind node (late.back ⟨rfl, rfl, rfl⟩ id)).held held hheld
    refine ⟨?_, (fun _ hs => by cases hs), fun a e v ha he => ?_⟩
    · have step : spec.steps.contains held.attempt.node = true := by
        by_contra none
        rw [not_eq_true] at none
        exact attemptKind_check none session.step
      exact here_standing rfl step ⟨behind.1, behind.2.1⟩
    · cases ha
      cases session.open_.symm.trans he

end

/-- An ending that may be staged: it is no restart's, its deadline has not fired, and its route has
a place on the trail. -/
structure Stageable (spec : WorkflowSpec) (r : RunRecord) (ending : Ending) : Prop where
  cause : ∀ c, ending.cause ≠ .restart c
  due : ending.cause = .deadline → r.deadlineFired = false
  route : ∀ node v, Late spec r node → ending.route = some v →
    v.target ≠ "@wait" ∧ (v.target ∈ reservedTargets ∨ TransGen spec.Keeps node v.target)

lemma Stageable.plain {ending} (cause : ∀ c, ending.cause ≠ .restart c)
    (due : ending.cause = .deadline → r.deadlineFired = false) (route : ending.route = none) :
    Stageable spec r ending :=
  ⟨cause, due, fun _ _ _ hv => by cases route.symm.trans hv⟩

lemma Tracked.stageAgentEnd (h : Tracked spec t.record) {ending ask}
    (stageable : Stageable spec t.record ending) (staged : t.stageAgentEnd ending ask = some t') :
    Tracked spec t'.record := by
  obtain ⟨a, p, ha, -, -, -, e⟩ := Transition.stageAgentEnd_spec staged
  subst e
  refine h.move ⟨rfl, rfl, rfl⟩ h.restart (fun b e hb he => ?_) fun node late => ?_
  · cases hb
    cases he
    exact ⟨stageable.cause, stageable.due⟩
  · have late := late.back (r := t.record) ⟨rfl, rfl, rfl⟩ id
    have behind := h.behind node late
    refine ⟨?_, behind.held, fun b e v hb he hv => ?_⟩
    · have here := behind.here
      rw [RunRecord.standing, ha] at here
      exact here
    · cases hb
      cases he
      exact stageable.route node v late hv

lemma Tracked.stageable (h : Tracked spec r) {a e} (ha : r.attempt = some a)
    (he : a.ending = some e) : Stageable spec r e :=
  ⟨(h.staged a e ha he).1, (h.staged a e ha he).2, fun node v late hv =>
    (h.behind node late).ending a e v ha he hv⟩

lemma kind_of_attemptKind {node step} (hstep : spec.steps[node]? = some step)
    (agent : attemptKind spec node = .agent) : step.kind = some .agent := by
  simp only [attemptKind, hstep] at agent
  split at agent
  · assumption
  · cases agent

/-- The move of a settled step: along its staged route, its `then`, its `asked`, or with the
deadline. -/
lemma Tracked.settleRoute (h : Tracked spec r) (admitted : spec.Admitted)
    (attempted : r.attempt.isSome = true) (contains : spec.steps.contains r.node = true)
    (held : r.held = none) {p : Option PreviousAttempt}
    (record : t.record = { r with attempt := none, prevAttempt := p }) {a : LiveAttempt}
    {ending : Ending} (stageable : Stageable spec r ending)
    (asked : ending.outcome = .asked → attemptKind spec r.node = .agent) {previous : PreviousAttempt}
    (routed : t.settleRoute spec a ending previous = some t') : Tracked spec t'.record := by
  have counts : SameCounts r t.record := record ▸ ⟨rfl, rfl, rfl⟩
  obtain ⟨definition, hstep⟩ : ∃ definition, spec.steps[r.node]? = some definition :=
    isSome_iff_exists.mp (ExtTreeMap.isSome_getElem?_eq_contains.trans contains)
  -- A route that the step names goes on along the trail.
  have onward : ∀ {outcome target}, outcome = "then" ∨ outcome = "asked" →
      (outcome = "asked" → definition.kind = some .agent) → spec.target r.node outcome = some target →
      ∀ node, Late spec r node →
        target ≠ "@wait" ∧ (target ∈ reservedTargets ∨ TransGen spec.Keeps node target) := by
    intro outcome target trigger agent htarget node late
    have mem : outcome ∈ ["then", "asked", "cap", "capacity"] := by
      rcases trigger with rfl | rfl <;> decide
    have agent' : outcome = "asked" ∨ outcome = "capacity" → definition.kind = some .agent := by
      rintro (e | e)
      · exact agent e
      · exact absurd (e ▸ trigger) (by decide)
    rcases admitted.step_target hstep mem agent' htarget with e | e | ⟨notWait, followed, -⟩
    · subst e
      exact ⟨by decide, .inl (by decide)⟩
    · subst e
      exact ⟨by decide, .inl (by decide)⟩
    · exact ⟨notWait, .inr ((h.behind node late).onward attempted contains followed)⟩
  have restart : t.record.restart = none := record ▸ h.restart
  have attempt : t.record.attempt = none := record ▸ rfl
  have alone : t.record.held = none := record ▸ held
  have node : t.record.node = r.node := record ▸ rfl
  have state : t.record.state = r.state := record ▸ rfl
  simp only [Transition.settleRoute] at routed
  split at routed
  · next verdict hroute =>
    obtain ⟨u, closed, routed⟩ := bind_eq_some_iff.mp routed
    have same : u.record = t.record := (Transition.closeTurn_spec closed).1
    refine h.leave (counts.trans (q := t.record) ?_) (fun active => ?_) ?_ ?_ ?_
      (fun late hlate => stageable.route late verdict hlate hroute) routed
    · exact same ▸ ⟨rfl, rfl, rfl⟩
    · exact state ▸ same ▸ active
    · exact (congrArg RunRecord.restart same).trans restart
    · exact (congrArg RunRecord.attempt same).trans attempt
    · exact (congrArg RunRecord.held same).trans alone
  · next continued _ hcause => exact absurd hcause (stageable.cause continued)
  · cases routed
    have closed := counts.trans t.closeWait_counts
    exact h.cancelRun (t := t.closeWait.edit fun r => { r with restart := none })
      ⟨closed.grant, closed.totals, closed.fired⟩ rfl ((Transition.closeWait_attempt t).trans attempt) _
  · next _ hcause =>
    obtain ⟨target, -, routed⟩ := bind_eq_some_iff.mp routed
    exact h.routeDeadline counts (stageable.due hcause) restart attempt routed
  split at routed
  · next hasked =>
    obtain ⟨target, htarget, routed⟩ := bind_eq_some_iff.mp routed
    have agent := kind_of_attemptKind hstep (asked hasked)
    refine h.leave (t := Transition.push _ _ _) counts (fun active => state ▸ active) restart attempt
      alone (onward (.inr rfl) (fun _ => agent) (node ▸ htarget)) routed
  · obtain ⟨target, htarget, routed⟩ := bind_eq_some_iff.mp routed
    exact h.leave counts (fun active => state ▸ active) restart attempt alone
      (onward (.inl rfl) (fun e => absurd e (by decide)) (node ▸ htarget)) routed

lemma Tracked.settleStep (h : Tracked spec r) (admitted : spec.Admitted)
    (attempted : r.attempt.isSome = true) (contains : spec.steps.contains r.node = true)
    (held : r.held = none) {p : PreviousAttempt}
    (record : t.record = { r with attempt := none, prevAttempt := some p }) {a : LiveAttempt}
    {ending : Ending} (stageable : Stageable spec r ending)
    (asked : ending.outcome = .asked → attemptKind spec r.node = .agent) {reason : Option String}
    (settled : t.settleStep spec a ending reason = some t') : Tracked spec t'.record := by
  obtain ⟨previous, -, routed⟩ := bind_eq_some_iff.mp settled
  refine h.settleRoute admitted attempted contains held (p := some p) ?_ stageable asked routed
  simp only [Transition.journalAttempt]
  split
  all_goals exact record

lemma Tracked.settleAgent (h : Tracked spec t.record) (admitted : spec.Admitted) {book js}
    (live : t.Live spec book js) (held : t.record.held = none) {reason}
    (settled : t.settleAgent spec reason = some t') : Tracked spec t'.record := by
  simp only [Transition.settleAgent, bind, bind_eq_some_iff] at settled
  obtain ⟨a, ha, ending, hending, p, -, settled⟩ := settled
  have sound := live.sound.live a ha
  have agent : attemptKind spec t.record.node = .agent := by
    rw [← sound.here held, ← sound.node]
    exact sound.kind.mpr (live.owner a ha)
  have contains : spec.steps.contains t.record.node = true := by
    by_contra none
    rw [not_eq_true] at none
    exact attemptKind_check none agent
  exact h.settleStep admitted (ha ▸ rfl) contains held rfl (h.stageable ha hending)
    (fun _ => agent) settled

/-- The end of a command step, or of a check that is given up. -/
lemma Tracked.finishScript (h : Tracked spec t.record) (admitted : spec.Admitted) {book js}
    (sound : t.Sound spec book js) {ending} (stageable : Stageable spec t.record ending)
    (asked : ending.outcome ≠ .asked) {reason settled}
    (done : t.finishScript spec ending reason = some (t', settled)) : Tracked spec t'.record := by
  simp only [Transition.finishScript] at done
  split at done
  · next step =>
    cases ha : t.record.attempt with
    | none =>
      rw [ha] at done
      cases done
      exact h
    | some a =>
      simp only [ha, bind, bind_eq_some_iff] at done
      obtain ⟨p, -, u, done, e⟩ := done
      cases e
      have held : t.record.held = none := by
        rcases hs : t.record.held with _ | s
        · rfl
        · cases step.symm.trans (sound.held s hs).node
      exact h.settleStep admitted (ha ▸ rfl) step held (p := p) rfl stageable
        (fun e => absurd e asked) done
  · next check =>
    cases done
    exact h.abandonCheck (not_eq_true _ ▸ check) _

lemma timeoutAt_node {span} (due : timeoutAt spec r = some span) :
    spec.checks.contains r.node = true ∨ r.attempt.isSome = true ∧
    spec.steps.contains r.node = true := by
  simp only [timeoutAt] at due
  split at due
  · next check hcheck => exact .inl (checks_contains hcheck)
  obtain ⟨a, ha, due⟩ := bind_eq_some_iff.mp due
  split at due
  · cases due
  simp only [map_eq_some_iff, bind_eq_some_iff] at due
  obtain ⟨_, ⟨step, hstep, -⟩, -⟩ := due
  refine .inr ⟨ha ▸ rfl, ?_⟩
  rw [← ExtTreeMap.isSome_getElem?_eq_contains, hstep]
  rfl

lemma finishScript_settled {ending reason settled} (attempted : t.record.attempt.isSome = true)
    (contains : spec.steps.contains t.record.node = true)
    (done : t.finishScript spec ending reason = some (t', settled)) : settled = true := by
  obtain ⟨a, ha⟩ := isSome_iff_exists.mp attempted
  simp only [Transition.finishScript, contains, if_true, ha, bind, bind_eq_some_iff] at done
  obtain ⟨p, -, u, -, e⟩ := done
  cases e
  rfl

lemma Tracked.bound (h : Tracked spec t.record) (admitted : spec.Admitted) {book js}
    (sound : t.Sound spec book js) {owesExit due} (done : t.bound spec owesExit = some (t', due)) :
    Tracked spec t'.record := by
  simp only [Transition.bound] at done
  split at done
  · cases done
    exact h
  split at done
  · next fell =>
    have unfired : t.record.deadlineFired = false := by simpa using fell.2.1
    simp only [bind, bind_eq_some_iff, Prod.exists] at done
    obtain ⟨u, settled, finished, done⟩ := done
    cases settled with
    | true =>
      cases done
      refine h.finishScript admitted sound (.plain (fun _ e => by cases e) (fun _ => unfired) rfl)
        (fun e => by cases e) finished
    | false =>
      have left := finishScript_unsettled finished
      simp only [false_eq_true, if_false, bind_eq_some_iff] at done
      obtain ⟨target, -, v, routed, e⟩ := done
      cases e
      exact h.routeDeadline (left ▸ ⟨rfl, rfl, rfl⟩) unfired (left ▸ h.restart) (left ▸ rfl) routed
  split at done
  · next fell =>
    rw [any_eq_true] at fell
    obtain ⟨span, hspan, -⟩ := fell
    simp only [bind, bind_eq_some_iff, Prod.exists] at done
    obtain ⟨u, settled, finished, done⟩ := done
    have ended := h.finishScript admitted sound
      (.plain (fun _ e => by cases e) (fun e => by cases e) rfl) (fun e => by cases e) finished
    cases settled with
    | true =>
      cases done
      exact ended
    | false =>
      have left := finishScript_unsettled finished
      have check : spec.checks.contains t.record.node = true := by
        refine (timeoutAt_node hspan).resolve_right fun step => ?_
        cases finishScript_settled step.1 step.2 finished
      simp only [false_eq_true, if_false, bind_eq_some_iff] at done
      obtain ⟨target, htarget, v, routed, e⟩ := done
      cases e
      have node : u.record.node = t.record.node := left ▸ rfl
      refine ended.engineRoute (left ▸ rfl) (fun _ _ => ?_) routed
      exact admitted.check_target (node ▸ check) htarget (by decide)
  · cases done
    exact h

end Edits

end Rimz.Workflow
