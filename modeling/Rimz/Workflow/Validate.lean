import Rimz.Lib.Graph
import Rimz.Workflow.Spec

/-!
# Validation

`validate_spec`, as far as it reads the definition alone. The errors that need a file, a profile, a
summary, or the text of a command or a condition come as `outside`: a definition without errors has
none of either. Warnings are left out.
-/

namespace Rimz.Workflow
open Std Rimz.Lib

structure Issue where
  path : String
  message : String

namespace WorkflowSpec
variable (spec : WorkflowSpec)

/-- The targets that `cycles_to` follows from a node. -/
def followed (allowed : String → Bool) (node : String) : List String :=
  (((spec.resolvedEdges node).getD []).filter fun edge =>
      !(edge.outcome = "deadline" || (spec.steps.contains node && edge.source ≠ .explicit))).map
    Edge.target |>.filter allowed

def nodes : List String := spec.checks.keys ++ spec.steps.keys

def cyclesTo (start : String) (allowed : String → Bool) : Bool :=
  let next := spec.followed allowed
  searchFrom next start (searchWeight next [] spec.nodes + 2) [start] []

/-- Whether a node names a step with `max-visits`. -/
def capped (node : String) : Bool := spec.steps[node]?.any fun step => step.maxVisits.isSome

/-- Whether a check can wait. -/
def waits (node : String) : Bool :=
  (spec.edges node).any fun edge => edge.outcome ≠ "deadline" && edge.target = "@wait"

/-- `Validation::target`. -/
def targetIssues (path target : String) : List Issue :=
  if target ∈ reservedTargets ∨ spec.checks.contains target ∨ spec.steps.contains target then []
  else [⟨path, "unknown target " ++ target⟩]

/-- An issue unless a condition holds. -/
def Issue.unless (ok : Bool) (path message : String) : List Issue :=
  if ok then [] else [⟨path, message⟩]

/-- `schedule::validate_name`. -/
def validName (name : String) : Bool :=
  name.toList ≠ [] && name.toList.all fun ch => ch.isAlphanum || ch = '-' || ch = '_'

/-- `Validation::node_name`. -/
def nameIssues (path name : String) : List Issue :=
  Issue.unless (validName name) path ("schedule name `" ++ name
    ++ "` must be non-empty and use only letters, digits, `-`, or `_`")

def checkIssues (node : String) (check : Check) : List Issue :=
  let path := "checks." ++ node
  let edges := spec.edges node
  nameIssues path node
  ++ Issue.unless (!spec.steps.contains node) path "name is also used by a step"
  ++ Issue.unless check.kind.isSome path
      "set exactly one of run, shell, agent, sleep, or cases (nonempty)"
  ++ (if check.kind = some .shell then ["pass", "fail"].flatMap fun outcome =>
        Issue.unless (check.on.contains outcome) (path ++ ".on." ++ outcome)
          "a shell check requires both on.pass and on.fail"
      else [])
  ++ Issue.unless (check.kind ≠ some .agent || check.promptFile.isSome) (path ++ ".prompt-file")
      "an agent check requires prompt-file"
  ++ (if check.kind = some .condition then
        (match check.elseOutcome with
          | some outcome => Issue.unless (outcome ∉ reservedOutcomes) (path ++ ".else")
              "choose a non-reserved outcome"
          | none => [⟨path ++ ".else", "a condition check requires else"⟩])
        ++ check.cases.flatMap (fun case_ => Issue.unless (case_.outcome ∉ reservedOutcomes)
            (path ++ ".cases.outcome") "choose a non-reserved outcome")
        ++ (check.elseOutcome.toList ++ check.cases.map Case.outcome).flatMap fun outcome =>
          Issue.unless (check.on.contains outcome) (path ++ ".on." ++ outcome)
            "route every case and else outcome in on"
      else [])
  ++ (if check.isSleep then
        Issue.unless (check.sleep ≠ some 0) (path ++ ".sleep") "sleep must be nonzero"
        ++ match check.then_ with
          | none | some "@wait" =>
            [⟨path ++ ".then", "a sleep requires then routing away from @wait"⟩]
          | some target => spec.targetIssues (path ++ ".then") target
      else [])
  ++ Issue.unless
      (!(edges.any fun edge => edge.outcome ≠ "deadline" && edge.target = "@wait")
        || check.timeout.isSome || check.isSleep) (path ++ ".timeout")
      (if check.kind = some .condition
          ∧ edges.any fun edge => edge.outcome = "unknown" && edge.target = "@wait" then
        "a waiting check requires timeout; set timeout or route on.unknown away from @wait "
          ++ "(and any other waiting outcomes)"
      else "a waiting check requires timeout")
  ++ check.on.toList.flatMap fun (outcome, route) =>
      spec.targetIssues (path ++ ".on." ++ outcome) route.target
      ++ Issue.unless (!(outcome = "timeout" && route.target = "@wait")) (path ++ ".on.timeout")
          "a timed-out check cannot wait on its expired timeout clock"

/-- The outcomes that some check can answer. -/
def answerable : List String :=
  (spec.checks.keys.flatMap fun node => (spec.edges node).map Edge.outcome).filter
    fun outcome => outcome ∉ reservedOutcomes

/-- The errors of a step's visit bounds. -/
def capIssues (path : String) (step : Step) : List Issue :=
  match step.maxVisitsPerOutcome with
  | none => []
  | some cap =>
    Issue.unless (cap.resetOn = [] || step.maxVisits.isSome)
      (path ++ ".max-visits-per-outcome.reset-on") "reset-on requires max-visits"
    ++ cap.resetOn.flatMap fun outcome =>
        Issue.unless (outcome ∈ spec.answerable) (path ++ ".max-visits-per-outcome.reset-on")
          ("no check answers outcome " ++ outcome)

/-- The errors of a route that a step's `on` names. -/
def onIssues (path outcome : String) : Option String → List Issue
  | none => []
  | some target => spec.targetIssues (path ++ ".on." ++ outcome) target
      ++ Issue.unless (target ≠ "@wait") (path ++ ".on." ++ outcome) "only checks can wait"

/-- The errors of a step. -/
def stepIssues (node : String) (step : Step) : List Issue :=
  let path := "steps." ++ node
  let agent := step.kind = some .agent
  nameIssues path node
  ++ spec.capIssues path step
  ++ Issue.unless step.kind.isSome path "set exactly one of agent, run, or shell"
  ++ Issue.unless (!agent || step.promptFile.isSome) (path ++ ".prompt-file")
      "an agent step requires prompt-file"
  ++ Issue.unless (agent || step.kind.isNone || step.timeout.isSome) (path ++ ".timeout")
      "a run or shell step requires timeout, so a hung command cannot hold the run"
  ++ Issue.unless (step.then_ ≠ []) (path ++ ".then")
      "then must name a check or a nonempty list of checks"
  ++ Issue.unless (step.then_.all fun target => spec.checks.contains target) (path ++ ".then")
      "then must name a check, never a step or @done"
  ++ Issue.unless (step.lifecycle ≠ .until_ || step.then_.all fun target =>
        !(spec.checks[target]?.any Check.isSleep)) (path ++ ".then")
      "an until step cannot use a sleep as its turn-end check; use lifecycle = \"turn\""
  ++ (step.then_.zip step.then_.tail).flatMap (fun (a, b) =>
      Issue.unless ((spec.edges a).any fun edge =>
          edge.outcome ≠ "deadline" && edge.target = b && edge.fires ≠ .never) (path ++ ".then")
        (a ++ " requires a direct route to the next listed check " ++ b))
  ++ (match if agent then step.on.capacity else none with
      | none => []
      | some target => spec.targetIssues (path ++ ".on.capacity") target
        ++ Issue.unless (target ∉ ["@user", "@wait"]) (path ++ ".on.capacity")
            "capacity give-up cannot park or wait; use @failed, @done, or a node")
  ++ (if agent then spec.onIssues path "asked" step.on.asked else [])
  ++ spec.onIssues path "cap" step.on.cap
  ++ Issue.unless (step.on.cap ≠ some node) (path ++ ".on.cap") "a capped step cannot target itself"

/-- The errors of the graph: a cycle of steps without a bound, a cycle of checks without a wait. -/
def cycleIssues : List Issue :=
  (spec.steps.toList.flatMap fun (node, step) =>
    Issue.unless (step.maxVisits.isSome || !spec.cyclesTo node fun name => !spec.capped name)
      ("steps." ++ node) (if step.maxVisitsPerOutcome.isSome then
        "cycle through steps has no max-visits bound; a per-outcome bound does not bound the cycle: "
          ++ "a check can name a new outcome or key every time; max-visits is needed"
      else "cycle through steps has no max-visits bound"))
  ++ spec.checks.keys.flatMap fun node =>
    Issue.unless (spec.waits node || !spec.cyclesTo node fun name =>
        spec.checks.contains name && !spec.waits name) ("checks." ++ node)
      "check-only cycle has no @wait"

/-- `validate_spec`: its errors. -/
def validateSpec (outside : List Issue) : List Issue :=
  outside
  ++ Issue.unless (spec.checks.contains spec.start || spec.steps.contains spec.start)
      "workflow.start" (spec.start ++ " must name a check or a step")
  ++ (spec.onDeadline.toList.flatMap (spec.targetIssues "workflow.on.deadline"))
  ++ (spec.checks.toList.flatMap fun (node, check) => spec.checkIssues node check)
  ++ (spec.steps.toList.flatMap fun (node, step) => spec.stepIssues node step)
  ++ spec.cycleIssues

lemma Issue.unless_eq_nil {ok path message} : Issue.unless ok path message = [] ↔ ok = true := by
  cases ok with
  | true | false => simp [Issue.unless]

lemma validName_not_reserved {name} (h : validName name = true) : name ∉ reservedTargets := by
  intro reserved
  simp only [reservedTargets, mem_cons, not_mem_nil, or_false] at reserved
  rcases reserved with rfl | rfl | rfl | rfl <;> revert h <;> decide

/-- What the engine relies on in a definition without errors. -/
structure Admitted : Prop where
  named : ∀ node : String, spec.checks.contains node = true ∨ spec.steps.contains node = true →
    node ∉ reservedTargets
  disjoint : ∀ node : String, spec.checks.contains node = true → spec.steps.contains node = false
  thenChecks : ∀ (node : String) (step : Step), spec.steps[node]? = some step →
    ∀ check ∈ step.then_, spec.checks.contains check = true
  thenNonempty : ∀ (node : String) (step : Step), spec.steps[node]? = some step → step.then_ ≠ []
  moves : ∀ (node : String) (step : Step), spec.steps[node]? = some step →
    step.on.cap ≠ some "@wait"
      ∧ (step.kind = some .agent → step.on.asked ≠ some "@wait" ∧ step.on.capacity ≠ some "@wait")
  acyclic : ∀ (node : String) (step : Step), spec.steps[node]? = some step → step.maxVisits = none →
    ¬Relation.TransGen (fun a b => b ∈ spec.followed (fun name => !spec.capped name) a) node node

variable {spec}

lemma followed_of_notMem {allowed node} (h : node ∉ spec.nodes) :
    spec.followed allowed node = [] := by
  simp only [nodes, mem_append, ExtTreeMap.mem_keys, not_or] at h
  have checks : spec.checks[node]? = none := ExtTreeMap.getElem?_eq_none h.1
  have steps : spec.steps[node]? = none := ExtTreeMap.getElem?_eq_none h.2
  simp [followed, resolvedEdges, nodeEdges, checks, steps]

lemma mem_toList {α : Type} {m : ExtTreeMap String α} {k v} (h : m[k]? = some v) :
    (k, v) ∈ m.toList :=
  ExtTreeMap.mem_toList_iff_getElem?_eq_some.mpr h

lemma checkIssues_nil {node check} (h : spec.checkIssues node check = []) :
    validName node = true ∧ spec.steps.contains node = false := by
  simp only [checkIssues, nameIssues, append_eq_nil_iff, Issue.unless_eq_nil] at h
  obtain ⟨⟨⟨⟨⟨⟨⟨⟨name, step⟩, -⟩, -⟩, -⟩, -⟩, -⟩, -⟩, -⟩ := h
  exact ⟨name, by simpa using step⟩

lemma onIssues_nil {path outcome target} (h : spec.onIssues path outcome target = []) :
    target ≠ some "@wait" := by
  rintro rfl
  simp [onIssues, Issue.unless] at h

lemma stepIssues_nil {node step} (h : spec.stepIssues node step = []) :
    validName node = true ∧ step.then_ ≠ []
      ∧ (step.then_.all fun target => spec.checks.contains target) = true
      ∧ step.on.cap ≠ some "@wait"
      ∧ (step.kind = some .agent → step.on.asked ≠ some "@wait" ∧ step.on.capacity ≠ some "@wait") := by
  simp only [stepIssues, nameIssues, append_eq_nil_iff, Issue.unless_eq_nil] at h
  obtain ⟨⟨⟨⟨⟨⟨⟨⟨⟨⟨⟨⟨name, -⟩, -⟩, -⟩, -⟩, nonempty⟩, checks⟩, -⟩, -⟩, capacity⟩, asked⟩, cap⟩,
    -⟩ := h
  refine ⟨name, of_decide_eq_true nonempty, checks, onIssues_nil cap, fun agent => ⟨?_, ?_⟩⟩
  · rw [if_pos agent] at asked
    exact onIssues_nil asked
  · rintro e
    simp [agent, e, Issue.unless] at capacity

lemma Admitted.of_validate {outside : List Issue} (h : spec.validateSpec outside = []) :
    spec.Admitted := by
  simp only [validateSpec, append_eq_nil_iff, List.flatMap_eq_nil_iff] at h
  obtain ⟨⟨⟨-, checks⟩, steps⟩, cycles⟩ := h
  have check : ∀ node : String, spec.checks.contains node = true →
      validName node = true ∧ spec.steps.contains node = false := by
    intro node hnode
    obtain ⟨check, hcheck⟩ : ∃ check, spec.checks[node]? = some check :=
      isSome_iff_exists.mp (ExtTreeMap.isSome_getElem?_eq_contains.trans hnode)
    have issues : spec.checkIssues node check = [] := checks (node, check) (mem_toList hcheck)
    exact checkIssues_nil issues
  have step : ∀ (node : String) (step : Step), spec.steps[node]? = some step →
      spec.stepIssues node step = [] := fun node step hstep => steps (node, step) (mem_toList hstep)
  refine ⟨?_, fun node hnode => (check node hnode).2, ?_, ?_, ?_, ?_⟩
  · rintro node (hnode | hnode)
    · exact validName_not_reserved (check node hnode).1
    · obtain ⟨definition, hstep⟩ : ∃ definition, spec.steps[node]? = some definition :=
        isSome_iff_exists.mp (ExtTreeMap.isSome_getElem?_eq_contains.trans hnode)
      exact validName_not_reserved (stepIssues_nil (step node definition hstep)).1
  · intro node definition hstep target mem
    exact List.all_eq_true.mp (stepIssues_nil (step node definition hstep)).2.2.1 target mem
  · exact fun node definition hstep => (stepIssues_nil (step node definition hstep)).2.1
  · exact fun node definition hstep => (stepIssues_nil (step node definition hstep)).2.2.2
  · intro node definition hstep uncapped
    simp only [cycleIssues, append_eq_nil_iff, List.flatMap_eq_nil_iff] at cycles
    have issue := Issue.unless_eq_nil.mp (cycles.1 _ (mem_toList hstep))
    simp only [uncapped, Option.isSome_none, Bool.false_or, not_eq_true', cyclesTo] at issue
    exact acyclic_of_searchFrom (fun x hx => followed_of_notMem hx) (by omega) issue

end WorkflowSpec

end Rimz.Workflow
