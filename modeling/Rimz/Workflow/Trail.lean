import Rimz.Workflow.Settled

/-!
# The trail of a run

Validation follows the routes of the definition and refuses a cycle through a step without
`max-visits`, but it does not look behind a step that has one. The engine leaves such a step without
a visit by its `cap` route, once a bound is spent, and by its `capacity` route. The trail of a run
is the path from the last visit of a step to the record's node along the routes that validation
follows and the routes that pass a bounded step by. A step that is visited twice lies on a cycle of
such routes, unless a bounded step was visited between the two or the deadline fired.
-/

namespace Rimz.Workflow
open Std Relation Rimz.Lib

namespace WorkflowSpec
variable (spec : WorkflowSpec)

/-- Whether a node is a step without `max-visits`. -/
def uncapped (node : String) : Bool := spec.steps[node]?.any fun step => step.maxVisits.isNone

/-- The targets of a step's own `cap` and `capacity` routes. -/
def bypasses (node : String) : List String :=
  (((spec.resolvedEdges node).getD []).filter fun edge =>
    edge.outcome ∈ ["cap", "capacity"] && edge.source = .explicit).map Edge.target

/-- A move from one node to another without a visit of a step with `max-visits`. -/
def Passes (a b : String) : Prop :=
  if spec.capped a then b ∈ spec.bypasses a else b ∈ spec.followed (fun _ => true) a

/-- A route past a step with `max-visits` that leads back to it through a step without one. -/
def Loops (a b : String) : Prop :=
  ∃ step, spec.uncapped step = true ∧ ReflTransGen spec.Passes b step ∧
    ReflTransGen spec.Passes step a

/-- A move that closes no such loop. -/
def Keeps (a b : String) : Prop := spec.Passes a b ∧ (spec.capped a = true → ¬spec.Loops a b)

variable {spec}

lemma capped_eq_false {node} (h : spec.uncapped node = true) : spec.capped node = false := by
  simp only [uncapped, capped, any_eq_true] at h ⊢
  obtain ⟨step, hstep, none⟩ := h
  simp [hstep, isNone_iff_eq_none.mp none]

lemma mem_followed {allowed a b} :
    b ∈ spec.followed allowed a ↔ b ∈ spec.followed (fun _ => true) a ∧ allowed b = true := by
  simp [followed]

/-- A move back towards a step without `max-visits` is one that validation follows. -/
lemma Keeps.followed {a b step} (uncapped : spec.uncapped step = true) (move : spec.Keeps a b)
    (there : ReflTransGen spec.Keeps step a) (back : ReflTransGen spec.Keeps b step) :
    b ∈ spec.followed (fun name => !spec.capped name) a := by
  have passes : ∀ {x y}, ReflTransGen spec.Keeps x y → ReflTransGen spec.Passes x y :=
    fun path => path.lift id fun _ _ move => move.1
  -- A bounded step on the way would be passed by on a loop.
  have bounded : ∀ {x y}, spec.Keeps x y → ReflTransGen spec.Keeps step x →
      ReflTransGen spec.Keeps y step → spec.capped x = false := by
    intro x y move there back
    cases hx : spec.capped x with
    | false => rfl
    | true => exact absurd ⟨step, uncapped, passes back, passes there⟩ (move.2 hx)
  have left := bounded move there back
  have right : spec.capped b = false := by
    rcases ReflTransGen.cases_head back with e | ⟨c, next, rest⟩
    · exact e ▸ capped_eq_false uncapped
    · exact bounded next (there.tail move) rest
  have target := move.1
  rw [Passes, left, if_neg Bool.false_ne_true] at target
  exact mem_followed.mpr ⟨target, by rw [right, Bool.not_false]⟩

lemma Admitted.no_loop (admitted : spec.Admitted) {step} (uncapped : spec.uncapped step = true) :
    ¬TransGen spec.Keeps step step := by
  intro loop
  have path : ∀ {b}, TransGen spec.Keeps step b → ReflTransGen spec.Keeps b step →
      TransGen (fun a b => b ∈ spec.followed (fun name => !spec.capped name) a) step b := by
    intro b there
    induction there with
    | single move =>
      intro back
      exact .single (move.followed uncapped .refl back)
    | tail there move ih =>
      intro back
      exact .tail (ih (.head move back)) (move.followed uncapped there.to_reflTransGen back)
  have uncapped' := uncapped
  simp only [WorkflowSpec.uncapped, any_eq_true] at uncapped'
  obtain ⟨definition, hstep, none⟩ := uncapped'
  exact admitted.acyclic step definition hstep (isNone_iff_eq_none.mp none) (path loop .refl)

lemma edgeTarget_some {edges outcome target} (h : edgeTarget edges outcome = some target) :
    ∃ edge ∈ edges, edge.outcome = outcome ∧ edge.target = target := by
  simp only [edgeTarget, map_eq_some_iff] at h
  obtain ⟨edge, found, e⟩ := h
  have answers := List.find?_some found
  exact ⟨edge, List.mem_of_find?_eq_some found, by simpa using answers, e⟩

lemma mem_resolvedEdges {node edges} (h : spec.resolvedEdges node = some edges) {edge}
    (mem : edge ∈ edges) :
    ∃ rows named, spec.nodeEdges node = some rows ∧ rows[edge.outcome]? = some (edge.target, named)
      ∧ edge.source = if named then .explicit else .default := by
  simp only [resolvedEdges, map_eq_some_iff] at h
  obtain ⟨rows, hrows, e⟩ := h
  subst e
  simp only [mem_filterMap, map_eq_some_iff, Prod.exists] at mem
  obtain ⟨outcome, -, target, named, row, e⟩ := mem
  subst e
  exact ⟨rows, named, hrows, row, rfl⟩

/-- The answer of a check waits, or takes a route that validation follows. -/
lemma Admitted.check_target (admitted : spec.Admitted) {node outcome target}
    (check : spec.checks.contains node = true) (h : spec.target node outcome = some target)
    (notDeadline : outcome ≠ "deadline") : target ∈ reservedTargets ∨ spec.Keeps node target := by
  have notStep := admitted.disjoint node check
  simp only [WorkflowSpec.target, bind_eq_some_iff, check, if_true] at h
  obtain ⟨edges, resolved, h⟩ := h
  split at h
  · cases h
    exact .inl (by decide)
  obtain ⟨edge, mem, hout, htarget⟩ := edgeTarget_some h
  have capped : spec.capped node = false := by
    simp [WorkflowSpec.capped, ExtTreeMap.getElem?_eq_none_of_contains_eq_false notStep]
  refine .inr ⟨?_, fun hc => by cases capped.symm.trans hc⟩
  rw [Passes, capped, if_neg Bool.false_ne_true]
  simp only [WorkflowSpec.followed, resolved, getD_some, mem_filter, mem_map]
  exact ⟨⟨edge, ⟨mem, by simp [hout, notDeadline, notStep]⟩, htarget⟩, trivial⟩

lemma edgeRow_get {rows outcome named default k} :
    (Step.edgeRow rows (outcome, named, default))[k]? =
      if outcome = k then
        ((named.map fun t => (t, true)).or (default.map fun t => (t, false))).or rows[k]?
      else rows[k]? := by
  cases named with
  | some target =>
    simp only [Step.edgeRow, get_insert]
    rfl
  | none =>
    cases default with
    | some target =>
      simp only [Step.edgeRow, get_insert]
      rfl
    | none => simp [Step.edgeRow]

/-- A row of a step's table: a route that the step names, or the end of a spent bound. -/
lemma step_row {step : Step} {outcome target} {named : Bool}
    (h : step.edges[outcome]? = some (target, named)) :
    if named then
      outcome = "then" ∧ step.then_.head? = some target ∨ outcome = "asked" ∧ step.on.asked =
        some target ∨ outcome = "cap" ∧ step.on.cap = some target
        ∨ outcome = "capacity" ∧ step.on.capacity = some target
    else target = "@user" ∨ target = "@failed" := by
  simp only [Step.edges, List.foldl, edgeRow_get] at h
  by_cases capacity : "capacity" = outcome
  · rw [if_pos capacity] at h
    cases hc : step.on.capacity with
    | none =>
      rw [hc] at h
      cases h
      exact .inr rfl
    | some t =>
      rw [hc] at h
      cases h
      exact .inr (.inr (.inr ⟨capacity.symm, rfl⟩))
  rw [if_neg capacity] at h
  by_cases cap : "cap" = outcome
  · rw [if_pos cap] at h
    cases hc : step.on.cap with
    | none =>
      rw [hc] at h
      cases h
      exact .inl rfl
    | some t =>
      rw [hc] at h
      cases h
      exact .inr (.inr (.inl ⟨cap.symm, rfl⟩))
  rw [if_neg cap] at h
  by_cases asked : "asked" = outcome
  · subst asked
    cases ha : step.on.asked with
    | none => simp [ha] at h
    | some t =>
      rw [if_pos rfl, ha] at h
      cases h
      exact .inr (.inl ⟨rfl, rfl⟩)
  rw [if_neg asked] at h
  split at h
  · next then_ =>
    subst then_
    cases ht : step.then_.head? with
    | none => simp [ht] at h
    | some t =>
      rw [ht] at h
      cases h
      exact .inl ⟨rfl, rfl⟩
  · simp at h

lemma then_followed {node check step} (hstep : spec.steps[node]? = some step)
    (notCheck : spec.checks.contains node = false) (hcheck : step.then_.head? = some check) :
    check ∈ spec.followed (fun _ => true) node := by
  have none : spec.checks[node]? = none := ExtTreeMap.getElem?_eq_none_of_contains_eq_false notCheck
  have row : step.edges["then"]? = some (check, true) := by
    simp [Step.edges, edgeRow_get, hcheck]
  have trigger : "then" ∈ stepTriggers.eraseDups := by decide
  simp only [followed, resolvedEdges, nodeEdges, outcomes, none, hstep, map_some, getD_some,
    mem_filter, mem_map, mem_filterMap]
  refine ⟨⟨⟨"then", check, .explicit, spec.fireability node "then"⟩, ⟨⟨"then", trigger, ?_⟩, ?_⟩, rfl⟩,
    trivial⟩
  · rw [get_insert, if_neg (by decide), row]
    rfl
  · simp

/-- The answer of a step's outcome, as `target` finds it in the table. -/
lemma target_step {node outcome target step} (hstep : spec.steps[node]? = some step)
    (check : spec.checks.contains node = false)
    (trigger : outcome ∈ ["then", "asked", "cap", "capacity"])
    (h : spec.target node outcome = some target) :
    target = "@user" ∨ ∃ edges edge named, spec.resolvedEdges node = some edges ∧ edge ∈ edges
      ∧ edge.outcome = outcome ∧ edge.target = target
      ∧ edge.source = (if named then .explicit else .default)
      ∧ step.edges[outcome]? = some (target, named) := by
  have same : (if outcome ∈ ["ended", "died", "canceled", "limited", "timeout"] then "then"
      else outcome) = outcome := by
    simp only [mem_cons, not_mem_nil, or_false] at trigger
    rcases trigger with rfl | rfl | rfl | rfl <;> rfl
  simp only [WorkflowSpec.target, bind_eq_some_iff, check, false_eq_true, if_false, same,
    Option.or_eq_some_iff] at h
  obtain ⟨edges, resolved, h | ⟨-, h⟩⟩ := h
  · obtain ⟨edge, mem, hout, htarget⟩ := edgeTarget_some h
    obtain ⟨rows, named, hrows, row, source⟩ := mem_resolvedEdges resolved mem
    refine .inr ⟨edges, edge, named, resolved, mem, hout, htarget, source, ?_⟩
    have none : spec.checks[node]? = none := ExtTreeMap.getElem?_eq_none_of_contains_eq_false check
    simp only [nodeEdges, none, hstep, map_some, Option.some.injEq] at hrows
    subst hrows
    have notDeadline : "deadline" ≠ outcome := by
      rintro rfl
      revert trigger
      decide
    rw [hout, htarget, get_insert, if_neg notDeadline] at row
    exact row
  · split at h
    · cases h
      exact .inl rfl
    · cases h

/-- The route of a step ends the run, or is one the step names and validation follows. -/
lemma Admitted.step_target (admitted : spec.Admitted) {node outcome target : String} {step}
    (hstep : spec.steps[node]? = some step)
    (trigger : outcome ∈ ["then", "asked", "cap", "capacity"])
    (agent : outcome = "asked" ∨ outcome = "capacity" → step.kind = some .agent)
    (h : spec.target node outcome = some target) :
    target = "@user" ∨ target = "@failed" ∨ target ≠ "@wait"
      ∧ target ∈ spec.followed (fun _ => true) node
      ∧ (outcome = "cap" ∨ outcome = "capacity" → target ∈ spec.bypasses node) := by
  have check : spec.checks.contains node = false := by
    rw [← not_eq_true]
    intro check
    have none := ExtTreeMap.getElem?_eq_none_of_contains_eq_false (admitted.disjoint node check)
    cases none.symm.trans hstep
  rcases target_step hstep check trigger h with e | ⟨edges, edge, named, resolved, mem, hout,
    htarget, source, row⟩
  · exact .inl e
  have named' := step_row row
  cases named with
  | false =>
    rcases named' with e | e
    · exact .inl e
    · exact .inr (.inl e)
  | true =>
    have explicit : edge.source = .explicit := source
    refine .inr (.inr ⟨?_, ?_, fun cap => ?_⟩)
    · obtain ⟨cap, others⟩ := admitted.moves node step hstep
      rintro rfl
      rcases named' with ⟨-, e⟩ | ⟨hask, e⟩ | ⟨-, e⟩ | ⟨hcap, e⟩
      · have mem := admitted.thenChecks node step hstep _ (mem_of_head? e)
        exact absurd (by decide) (admitted.named _ (.inl mem))
      · exact (others (agent (.inl hask))).1 e
      · exact cap e
      · exact (others (agent (.inr hcap))).2 e
    · have notDeadline : edge.outcome ≠ "deadline" := by
        rw [hout]
        rintro rfl
        revert trigger
        decide
      simp only [WorkflowSpec.followed, resolved, getD_some, mem_filter, mem_map]
      exact ⟨⟨edge, ⟨mem, by simp [notDeadline, explicit]⟩, htarget⟩, trivial⟩
    · simp only [bypasses, resolved, getD_some, mem_filter, mem_map]
      exact ⟨edge, ⟨mem, by simp [hout, explicit, cap]⟩, htarget⟩

end WorkflowSpec

end Rimz.Workflow
