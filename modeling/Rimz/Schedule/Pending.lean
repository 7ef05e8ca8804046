import Mathlib.Data.Fintype.Card
import Rimz.Ids
import Rimz.Lib.Walk

/-!
# Waits for launched runs

`project_run_waits` of `harness/schedule/pending.rs` shows, with every agent, the runs it has
launched and that have not settled. What a wait is worth depends on the work behind it:
`target_work_class` searches the agents behind a wait, with the agents on the way to the current one
in a set that it undoes on its return. The search is compared with plain reachability.
-/

namespace Rimz.Schedule
open Rimz.Lib

/-- `PendingWaitClass`, from the weakest. -/
inductive PendingWaitClass where
  | inert
  | sleeping
  | working
  deriving DecidableEq

namespace PendingWaitClass

def rank : PendingWaitClass → Nat
  | inert => 0
  | sleeping => 1
  | working => 2

lemma rank_injective : Function.Injective rank := by
  intro a b h
  cases a <;> cases b <;> first | rfl | cases h

instance : LinearOrder PendingWaitClass := LinearOrder.lift' rank rank_injective

lemma inert_le {c} : inert ≤ c := by
  cases c <;> decide

lemma le_working (c : PendingWaitClass) : c ≤ working := by
  cases c <;> decide

end PendingWaitClass

open PendingWaitClass

/-- A wait of an agent on a launched run or team: its own class, and the agent of a run that has not
ended. -/
structure RunWait (n : Nat) where
  cls : PendingWaitClass
  target : Option (Fin n)

/-- The agents of a snapshot by index, as the search reads them, and the waits of each. -/
structure Room (n : Nat) where
  /-- `rowless_status` now. -/
  status : Fin n → AgentStatus
  /-- `silent_child_for` now. -/
  silent : Fin n → Bool
  projected : Fin n → List (RunWait n)

namespace Room

variable {n : Nat}

/-- The loop over the classes of an agent's waits; it stops at the first that works. -/
def strongest (cls : PendingWaitClass) : List PendingWaitClass → PendingWaitClass
  | [] => cls
  | next :: rest =>
    if next = working then next
    else strongest (if next = sleeping then next else cls) rest

/-- `target_work_class`. The index is in the set during the calls below, and out of it again on
return: the caller's set is as before. -/
def targetWorkClass (room : Room n) (index : Fin n) (visiting : Finset (Fin n)) :
    PendingWaitClass :=
  if _fresh : index ∈ visiting then inert
  else if room.silent index then inert
  else if room.status index = .running then working
  else if room.status index = .idle ∨ room.status index = .success ∨
      room.status index = .sleeping then
    strongest (if room.status index = .sleeping then sleeping else inert)
      ((room.projected index).map fun wait =>
        match wait.target with
        | none => wait.cls
        | some target => room.targetWorkClass target (insert index visiting))
  else inert
termination_by n - visiting.card
decreasing_by
  have grows : (insert index visiting).card = visiting.card + 1 :=
    Finset.card_insert_of_notMem _fresh
  have bound : (insert index visiting).card ≤ n := by
    simpa using Finset.card_le_univ (insert index visiting)
  omega

/-- The waits that `project_run_waits` shows with an agent. -/
def projectRunWaits (room : Room n) (index : Fin n) : List (RunWait n) :=
  (room.projected index).map fun wait =>
    match wait.target with
    | none => wait
    | some target => { wait with cls := room.targetWorkClass target {index} }

/-! ## What is behind a wait -/

/-- An agent that the search goes through: at rest, and not silent. -/
def Rests (room : Room n) (i : Fin n) : Prop :=
  room.silent i = false ∧
    (room.status i = .idle ∨ room.status i = .success ∨ room.status i = .sleeping)

/-- An agent at rest waits for an unsettled run of another. -/
def Awaits (room : Room n) (i j : Fin n) : Prop :=
  room.Rests i ∧ ∃ wait ∈ room.projected i, wait.target = some j

/-- The classes found behind a target without entering the agents of a set. -/
inductive Found (room : Room n) (avoid : Finset (Fin n)) (target : Fin n) :
    PendingWaitClass → Prop where
  | nothing : Found room avoid target inert
  | running {i : Fin n} :
    Avoiding room.Awaits avoid target i →
    room.silent i = false →
    room.status i = .running →
    Found room avoid target working
  | sleeping {i : Fin n} :
    Avoiding room.Awaits avoid target i →
    room.silent i = false →
    room.status i = .sleeping →
    Found room avoid target sleeping
  | leaf {i : Fin n} {wait : RunWait n} :
    Avoiding room.Awaits avoid target i →
    room.Rests i →
    wait ∈ room.projected i →
    wait.target = none →
    Found room avoid target wait.cls

/-! ## The search finds the greatest -/

lemma strongest_mem (cls : PendingWaitClass) (cs : List PendingWaitClass) :
    strongest cls cs = cls ∨ strongest cls cs ∈ cs := by
  induction cs generalizing cls with
  | nil => exact .inl rfl
  | cons next rest ih =>
    rw [strongest]
    split
    · exact .inr mem_cons_self
    rcases ih (if next = sleeping then next else cls) with h | h
    · rw [h]
      split
      · exact .inr mem_cons_self
      · exact .inl rfl
    · exact .inr (mem_cons_of_mem next h)

/-- It gives none below the others, since an agent at rest does not work itself. -/
lemma le_strongest {cls} (cs : List PendingWaitClass) (h : cls ≠ working) :
    cls ≤ strongest cls cs ∧ ∀ c ∈ cs, c ≤ strongest cls cs := by
  induction cs generalizing cls with
  | nil => exact ⟨le_refl cls, nofun⟩
  | cons next rest ih =>
    rw [strongest, List.forall_mem_cons]
    cases next with
    | working =>
      exact ⟨le_working cls, le_refl _, fun c _ => le_working c⟩
    | sleeping =>
      have resting : sleeping ≠ working := by decide
      obtain ⟨own, others⟩ := ih resting
      have below : cls ≤ sleeping := by
        cases cls with
        | inert | sleeping => decide
        | working => exact (h rfl).elim
      exact ⟨below.trans own, own, others⟩
    | inert =>
      obtain ⟨own, others⟩ := ih h
      exact ⟨own, inert_le, others⟩

variable {room : Room n} {avoid : Finset (Fin n)} {index : Fin n} {c : PendingWaitClass}

lemma found_visited (h : index ∈ avoid) (found : room.Found avoid index c) : c = inert := by
  have none_reached {i} (walk : Avoiding room.Awaits avoid index i) : False := by
    induction walk with
    | start fresh => exact fresh h
    | next _ _ _ ih => exact ih
  cases found with
  | nothing => rfl
  | running walk | sleeping walk | leaf walk => exact (none_reached walk).elim

lemma found_not_resting (h : ¬ room.Rests index) (found : room.Found avoid index c) :
    c = inert ∨ room.silent index = false ∧ room.status index = .running ∧ c = working := by
  have stays {i} (walk : Avoiding room.Awaits avoid index i) : i = index := by
    rcases walk.leave with e | ⟨j, ⟨rests, -⟩, -⟩
    · exact e
    · exact (h rests).elim
  cases found with
  | nothing => exact .inl rfl
  | running walk heard runs =>
    cases stays walk
    exact .inr ⟨heard, runs, rfl⟩
  | sleeping walk heard sleeps =>
    cases stays walk
    exact (h ⟨heard, .inr (.inr sleeps)⟩).elim
  | leaf walk rests =>
    cases stays walk
    exact (h rests).elim

/-- What is found behind an agent at rest: its own sleep, a wait without a target, or what is found
behind the target of a wait without coming back to the agent. -/
lemma found_resting (rests : room.Rests index) (found : room.Found avoid index c) :
    c = inert ∨ (room.status index = .sleeping ∧ c = sleeping) ∨
      ∃ wait ∈ room.projected index,
        match wait.target with
        | none => c = wait.cls
        | some target => room.Found (insert index avoid) target c := by
  cases found with
  | nothing => exact .inl rfl
  | running walk heard runs =>
    rcases walk.leave with rfl | ⟨j, ⟨-, wait, hwait, ht⟩, walk⟩
    · obtain ⟨-, h | h | h⟩ := rests <;> cases runs.symm.trans h
    · refine .inr (.inr ⟨wait, hwait, ?_⟩)
      rw [ht]
      exact .running walk heard runs
  | sleeping walk heard sleeps =>
    rcases walk.leave with rfl | ⟨j, ⟨-, wait, hwait, ht⟩, walk⟩
    · exact .inr (.inl ⟨sleeps, rfl⟩)
    · refine .inr (.inr ⟨wait, hwait, ?_⟩)
      rw [ht]
      exact .sleeping walk heard sleeps
  | @leaf i leaf walk rests' hleaf hnone =>
    rcases walk.leave with rfl | ⟨j, ⟨-, wait, hwait, ht⟩, walk⟩
    · refine .inr (.inr ⟨leaf, hleaf, ?_⟩)
      rw [hnone]
    · refine .inr (.inr ⟨wait, hwait, ?_⟩)
      rw [ht]
      exact .leaf walk rests' hleaf hnone

lemma Found.behind {target} (fresh : index ∉ avoid) (awaits : room.Awaits index target)
    (found : room.Found (insert index avoid) target c) : room.Found avoid index c := by
  have extend {i} (walk : Avoiding room.Awaits (insert index avoid) target i) :
      Avoiding room.Awaits avoid index i :=
    .cons fresh awaits (walk.mono (Finset.subset_insert index avoid))
  cases found with
  | nothing => exact .nothing
  | running walk heard runs => exact .running (extend walk) heard runs
  | sleeping walk heard sleeps => exact .sleeping (extend walk) heard sleeps
  | leaf walk rests hwait hnone => exact .leaf (extend walk) rests hwait hnone

/-- The loop of the search, for targets searched without coming back to the agent. -/
lemma isGreatest_resting {search : Fin n → PendingWaitClass} (fresh : index ∉ avoid)
    (rests : room.Rests index)
    (ih : ∀ target, IsGreatest {c | room.Found (insert index avoid) target c} (search target)) :
    IsGreatest {c | room.Found avoid index c}
      (strongest (if room.status index = .sleeping then sleeping else inert)
        ((room.projected index).map fun wait =>
          match wait.target with
          | none => wait.cls
          | some target => search target)) := by
  set own := if room.status index = .sleeping then sleeping else inert with hown
  set waits := (room.projected index).map fun wait =>
    match wait.target with
    | none => wait.cls
    | some target => search target with hwaits
  have resting : own ≠ working := by
    rw [hown]
    split <;> decide
  constructor
  · rcases strongest_mem own waits with h | h
    · rw [h, hown]
      split
      next sleeps => exact .sleeping (.start fresh) rests.1 sleeps
      next => exact .nothing
    obtain ⟨wait, hwait, e⟩ := mem_map.mp h
    rw [← e]
    cases ht : wait.target with
    | none => exact .leaf (.start fresh) rests hwait ht
    | some target => exact .behind fresh ⟨rests, wait, hwait, ht⟩ (ih target).1
  · intro c found
    obtain ⟨own_le, waits_le⟩ := le_strongest waits resting
    rcases found_resting rests found with rfl | ⟨sleeps, rfl⟩ | ⟨wait, hwait, h⟩
    · exact inert_le
    · have hsleeping : own = sleeping := by rw [hown, if_pos sleeps]
      exact hsleeping ▸ own_le
    have le := waits_le _ (mem_map.mpr ⟨wait, hwait, rfl⟩)
    cases ht : wait.target with
    | none =>
      rw [ht] at h le
      rw [h]
      exact le
    | some target =>
      rw [ht] at h le
      exact ((ih target).2 h).trans le

/-- The search gives the greatest class behind the target. -/
lemma isGreatest_targetWorkClass (room : Room n) (index : Fin n) (visiting : Finset (Fin n)) :
    IsGreatest {c | room.Found visiting index c} (room.targetWorkClass index visiting) := by
  induction index, visiting using targetWorkClass.induct room with
  | case1 index visiting visited =>
    rw [targetWorkClass, dif_pos visited]
    refine ⟨.nothing, fun c found => ?_⟩
    rw [found_visited visited found]
  | case2 index visiting fresh silent =>
    rw [targetWorkClass, dif_neg fresh, if_pos silent]
    refine ⟨.nothing, fun c found => ?_⟩
    have quiet : ¬ room.Rests index := fun rests => by cases silent.symm.trans rests.1
    rcases found_not_resting quiet found with rfl | ⟨heard, -⟩
    · exact le_refl _
    · cases silent.symm.trans heard
  | case3 index visiting fresh heard runs =>
    rw [targetWorkClass, dif_neg fresh, if_neg heard, if_pos runs]
    exact ⟨.running (.start fresh) (not_eq_true _ ▸ heard) runs, fun c _ => le_working c⟩
  | case4 index visiting fresh heard idle rests ih =>
    rw [targetWorkClass, dif_neg fresh, if_neg heard, if_neg idle, if_pos rests]
    exact isGreatest_resting fresh ⟨not_eq_true _ ▸ heard, rests⟩ ih
  | case5 index visiting fresh heard idle active =>
    rw [targetWorkClass, dif_neg fresh, if_neg heard, if_neg idle, if_neg active]
    refine ⟨.nothing, fun c found => ?_⟩
    have busy : ¬ room.Rests index := fun rests => active rests.2
    rcases found_not_resting busy found with rfl | ⟨-, runs, -⟩
    · exact le_refl _
    · exact (idle runs).elim

/-- The waits of two rooms are the same up to their order. -/
def SameWaits (room other : Room n) : Prop :=
  other.status = room.status ∧ other.silent = room.silent ∧
    ∀ i, (other.projected i).Perm (room.projected i)

lemma SameWaits.found {other} (h : room.SameWaits other) (found : room.Found avoid index c) :
    other.Found avoid index c := by
  obtain ⟨status, silent, perm⟩ := h
  have rests {i} (hr : room.Rests i) : other.Rests i := by
    rw [Rests, status, silent]
    exact hr
  have walks {i} (walk : Avoiding room.Awaits avoid index i) :
      Avoiding other.Awaits avoid index i := by
    induction walk with
    | start fresh => exact .start fresh
    | next _ awaits fresh ih =>
      obtain ⟨hr, wait, hwait, ht⟩ := awaits
      exact ih.next ⟨rests hr, wait, (perm _).mem_iff.mpr hwait, ht⟩ fresh
  cases found with
  | nothing => exact .nothing
  | running walk heard runs => exact .running (walks walk) (silent ▸ heard) (status ▸ runs)
  | sleeping walk heard sleeps => exact .sleeping (walks walk) (silent ▸ heard) (status ▸ sleeps)
  | leaf walk hr hwait hnone =>
    exact .leaf (walks walk) (rests hr) ((perm _).mem_iff.mpr hwait) hnone

lemma SameWaits.symm {other} (h : room.SameWaits other) : other.SameWaits room :=
  ⟨h.1.symm, h.2.1.symm, fun i => (h.2.2 i).symm⟩

lemma mem_projectRunWaits {wait} (h : wait ∈ room.projectRunWaits index) :
    (wait ∈ room.projected index ∧ wait.target = none) ∨
      ∃ target, wait.target = some target ∧ wait.cls = room.targetWorkClass target {index} := by
  obtain ⟨base, hbase, rfl⟩ := mem_map.mp h
  cases hb : base.target with
  | none => exact .inl ⟨hbase, hb⟩
  | some target => exact .inr ⟨target, rfl, rfl⟩

/-- A launched wait of an agent shows the strongest work behind it: the greatest class found among
the agents and the waits reached from its target through agents at rest, without entering the agent
itself. The order of the waits of any agent does not matter. -/
theorem wait_shows_strongest_work (room : Room n) (owner : Fin n) :
    (∀ wait ∈ room.projectRunWaits owner, ∀ target, wait.target = some target →
      IsGreatest {c | room.Found {owner} target c} wait.cls) ∧
    (∀ wait ∈ room.projectRunWaits owner, wait.target = none → wait ∈ room.projected owner) ∧
    ∀ target, IsGreatest {c | room.Found {owner} target c} (room.targetWorkClass target {owner}) ∧
      ∀ other, room.SameWaits other →
        other.targetWorkClass target {owner} = room.targetWorkClass target {owner} := by
  refine ⟨?_, ?_, ?_⟩
  · intro wait hwait target ht
    rcases mem_projectRunWaits hwait with ⟨-, hnone⟩ | ⟨t, ht', hcls⟩
    · cases hnone.symm.trans ht
    · cases ht'.symm.trans ht
      rw [hcls]
      exact room.isGreatest_targetWorkClass target {owner}
  · intro wait hwait ht
    rcases mem_projectRunWaits hwait with ⟨hmem, -⟩ | ⟨t, ht', -⟩
    · exact hmem
    · cases ht'.symm.trans ht
  · intro target
    refine ⟨room.isGreatest_targetWorkClass target {owner}, fun other same => ?_⟩
    have here := room.isGreatest_targetWorkClass target {owner}
    have there := other.isGreatest_targetWorkClass target {owner}
    have sets : {c | other.Found {owner} target c} = {c | room.Found {owner} target c} := by
      ext c
      exact ⟨same.symm.found, same.found⟩
    rw [sets] at there
    exact there.unique here

end Room

end Rimz.Schedule
