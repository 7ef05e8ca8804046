import Rimz.Schedule.Overlap

/-!
# No trigger is lost

What every run of the overlap protocol keeps: the count of the arrivals, the order in which a queue
is served, and the drain that a release leaves behind for the triggers it leaves waiting.
-/

namespace Rimz.Schedule

namespace World

/-- Every arrival was refused, failed, is served or waits. -/
def Conserved (w : World) : Prop :=
  w.arrivals = w.refused + w.failed + weights w.served + weights w.backlog.triggers

/-- Each trigger was served before the triggers that it left waiting were due, and the triggers of
one instant are served in the order in which they entered. -/
structure ServedInOrder (w : World) : Prop where
  first : ∀ s ∈ w.services, ∀ u ∈ s.waiting, s.trigger.arrivedAt ≤ u.arrivedAt
  fifo : ∀ at_ : Timestamp,
    (w.services.map Service.trigger ++ w.backlog.triggers).filter (·.arrivedAt = at_)
      = w.entered.filter (·.arrivedAt = at_)

/-- While triggers wait and no fire has the run lock, a drain was started no earlier than the
release that freed the lock. -/
def Drained (w : World) : Prop :=
  w.backlog.triggers ≠ [] → w.holder = none →
    ∃ freed, w.freed = some freed ∧ ∃ t ∈ w.drains, freed.time ≤ t

/-- The same, but for a release whose process died or met a failure. -/
def DrainedUnlessFaulty (w : World) : Prop :=
  w.backlog.triggers ≠ [] → w.holder = none →
    ∃ freed, w.freed = some freed ∧ (freed.faulty = false → ∃ t ∈ w.drains, freed.time ≤ t)

/-- What every act keeps. -/
structure Inv (entry : TaskEntry) (w : World) : Prop where
  conserved : w.Conserved
  inOrder : w.backlog.InOrder
  served : entry.overlap = .queue → w.ServedInOrder
  drained : w.DrainedUnlessFaulty

end World

/-! ### The sections of a fire -/

namespace TaskFire
variable {entry : TaskEntry} {f : TaskFire} {b : TaskBacklog}

/-- A start enters its trigger and serves the oldest. -/
lemma startRun_scheduled (hp : entry.overlap ≠ .skip) (hf : f.mode = .scheduled)
    (info : RunLockInfo) : ∃ b' t rest, b.enqueue entry.overlap none f.waitingTrigger = (true, b')
      ∧ b'.triggers = t :: rest
      ∧ f.startRun entry info b
        = ({ f.serveTrigger t with runLock := some info }, { b' with triggers := rest }) := by
  have accepted : b.enqueue entry.overlap none f.waitingTrigger
      = (true, (b.enqueue entry.overlap none f.waitingTrigger).2) :=
    Prod.ext (TaskBacklog.enqueue_unlimited hp) rfl
  have queued := TaskBacklog.enqueue_ne_nil accepted
  obtain ⟨t, rest, ht⟩ := List.exists_cons_of_ne_nil queued
  refine ⟨_, t, rest, accepted, ht, ?_⟩
  simp only [startRun, hp, hf, ne_eq, not_false_eq_true, decide_true, Bool.and_self, if_true, ht]

/-- A deferred fire waits or is refused. -/
lemma deferScheduled_spec (entry : TaskEntry) (throttled : Bool) (info : Option RunLockInfo) :
    ∃ enqueued b', b.enqueue entry.overlap (some (entry.overlapLimit.getD 10)) f.waitingTrigger
        = (enqueued, b')
      ∧ (f.deferScheduled entry throttled info b).1.triggers = b'.triggers
      ∧ (f.deferScheduled entry throttled info b).2.result
        = if enqueued then .deferred else .overlapped := by
  refine ⟨_, _, rfl, ?_, rfl⟩
  simp only [deferScheduled]
  cases h : info.filter fun _ => entry.overlap = .replace && !throttled with
  | none => rfl
  | some holder =>
    simp only [map_some, getD_some, replaceMark]
    split
    all_goals rfl

/-- A drain that gets the lock serves the oldest trigger. -/
lemma takeBacklog_some {attempt now f' b'} (h : f.takeBacklog attempt now b = some (f', b')) :
    ∃ info t rest, attempt = .acquired info ∧ b.triggers = t :: rest
      ∧ f' = { f.serveTrigger t with runLock := some info, now := now }
      ∧ b' = { b with triggers := rest } := by
  cases ht : b.triggers with
  | nil => simp [takeBacklog, ht] at h
  | cons t rest =>
    cases attempt with
    | held info => simp [takeBacklog, ht] at h
    | acquired info =>
      simp only [takeBacklog, ht, Option.some.injEq, Prod.mk.injEq] at h
      exact ⟨info, t, rest, rfl, rfl, h.1.symm, h.2.symm⟩

/-- A reconciled fire goes on as it was, or, outside a queue, with all waiting triggers absorbed. -/
lemma reconcileBacklog_some {f' b'} (h : f.reconcileBacklog entry b = some (f', b')) :
    (f' = f ∧ b' = b)
      ∨ (entry.overlap ≠ .queue ∧ f.mode = .scheduled ∧ f'.mode = .scheduled ∧ b'.triggers = []
        ∧ f'.waitingTrigger.weight = weights b.triggers + f.waitingTrigger.weight) := by
  unfold reconcileBacklog at h
  split at h
  · simp only [Option.some.injEq, Prod.mk.injEq] at h
    exact .inl ⟨h.1.symm, h.2.symm⟩
  split at h
  · cases h
  split at h
  · simp only [Option.some.injEq, Prod.mk.injEq] at h
    exact .inl ⟨h.1.symm, h.2.symm⟩
  rename_i mode
  simp only [or_eq_true, decide_eq_true_eq, not_eq_true', not_or, not_not,
    not_eq_false] at mode
  split at h
  · simp only [Option.some.injEq, Prod.mk.injEq] at h
    exact .inl ⟨h.1.symm, h.2.symm⟩
  rename_i newest last
  obtain ⟨rfl, rfl⟩ := h
  obtain ⟨front, split⟩ := List.getLast?_eq_some_iff.mp last
  refine .inr ⟨?_, mode.1, mode.1, rfl, ?_⟩
  · rcases mode.2 with h | h
    all_goals rw [h]; nofun
  · simp only [waitingTrigger_serveTrigger, WaitingTrigger.weight_absorb,
      WaitingTrigger.weight_absorbAll, split, List.dropLast_concat, weights_append,
      weights_cons, weights_nil]
    omega

end TaskFire

/-! ### Acts -/

namespace World
variable {entry : TaskEntry} {w : World} {f : TaskFire} {io : Io}

lemma ServedInOrder.enter (h : w.ServedInOrder) {t b limit}
    (entered : w.backlog.enqueue .queue limit t = (true, b)) :
    ServedInOrder { w with backlog := b, entered := w.entered ++ [t] } where
  first := h.first
  fifo at_ := by
    have old := h.fifo at_
    simp only [filter_append, TaskBacklog.enqueue_filter entered, ← old, append_assoc]

/-- The oldest trigger is served. -/
lemma ServedInOrder.take (h : w.ServedInOrder) (inOrder : w.backlog.InOrder) {t rest}
    (head : w.backlog.triggers = t :: rest) : ServedInOrder { w with
      backlog := { w.backlog with triggers := rest }
      services := w.services ++ [⟨t, rest⟩] } where
  first s hs := by
    rcases mem_append.mp hs with old | new
    · exact h.first s old
    · rw [mem_singleton.mp new]
      rw [TaskBacklog.InOrder, head] at inOrder
      exact (pairwise_cons.mp inOrder).1
  fifo at_ := by
    rw [← h.fifo at_, head, map_append, append_assoc]
    rfl

lemma InOrder.tail {b : TaskBacklog} {t rest} (h : b.InOrder) (head : b.triggers = t :: rest) :
    TaskBacklog.InOrder { b with triggers := rest } := by
  rw [TaskBacklog.InOrder, head] at h
  exact (pairwise_cons.mp h).2

lemma weights_serving (hf : f.mode = .scheduled) : weights f.serving = f.waitingTrigger.weight := by
  simp [TaskFire.serving, hf]

namespace Inv

lemma start : Inv entry start where
  conserved := rfl
  inOrder := List.Pairwise.nil
  served _ := ⟨nofun, fun _ => rfl⟩
  drained := nofun

/-- What waits and what was served are untouched. -/
lemma congr (h : Inv entry w) {w' : World} (conserved : w'.Conserved)
    (triggers : w'.backlog.triggers = w.backlog.triggers)
    (entered : w'.entered = w.entered) (services : w'.services = w.services)
    (drained : w'.DrainedUnlessFaulty) : Inv entry w' where
  conserved := conserved
  inOrder := by
    rw [TaskBacklog.InOrder, triggers]
    exact h.inOrder
  served hq := ⟨by rw [services]; exact (h.served hq).first,
    by rw [services, triggers, entered]; exact (h.served hq).fifo⟩
  drained := drained

/-- A fire starts, waits or is refused. -/
lemma arrive (hp : entry.overlap ≠ .skip) (h : Inv entry w) (hf : f.mode = .scheduled)
    (fresh : f.waitingTrigger.weight = 1) (info : RunLockInfo) (known throttled : Bool) :
    Inv entry (w.arrive entry f info known throttled io) := by
  have total := h.conserved
  unfold World.arrive
  split
  · refine h.congr ?_ rfl rfl rfl h.drained
    simp only [Conserved, World.served] at total ⊢
    omega
  cases free : w.holder with
  | none =>
    obtain ⟨b, t, rest, entered, head, started⟩ :=
      TaskFire.startRun_scheduled (b := w.backlog) hp hf info
    have count := TaskBacklog.enqueue_weights entered
    have sorted := TaskBacklog.enqueue_inOrder entered
    simp only [attempt, free, TaskFire.prepareRunLock, started]
    refine ⟨?_, InOrder.tail sorted head, fun hq => ?_, nofun⟩
    · rw [head, weights_cons, fresh] at count
      simp only [Conserved, World.served, free, toList_none, toList_some,
        flatMap_cons, List.flatMap_nil, append_nil, weights_append] at total ⊢
      rw [weights_serving (by exact hf)]
      change _ = _ + (_ + t.weight) + _
      omega
    · rw [hq] at entered
      have order := ((h.served hq).enter entered).take sorted head
      exact ⟨order.first, order.fifo⟩
  | some g =>
    have scheduled : (entry.overlap ≠ .skip && f.mode = .scheduled) = true := by simp [hp, hf]
    obtain ⟨enqueued, b, entered, triggers, result⟩ :=
      TaskFire.deferScheduled_spec (f := f) (b := w.backlog) entry throttled
        (if known then g.runLock else none)
    simp only [attempt, free, TaskFire.prepareRunLock, scheduled, if_true, result]
    cases enqueued with
    | false =>
      rw [TaskBacklog.enqueue_refused entered] at triggers
      simp only [false_eq_true, if_false]
      refine h.congr ?_ triggers rfl rfl nofun
      simp only [Conserved, World.served, triggers, free] at total ⊢
      omega
    | true =>
      have count := TaskBacklog.enqueue_weights entered
      simp only [if_true]
      refine ⟨?_, ?_, fun hq => ⟨(h.served hq).first, fun at_ => ?_⟩, ?_⟩
      · simp only [Conserved, World.served, triggers, free] at total ⊢
        omega
      · rw [TaskBacklog.InOrder, triggers]
        exact TaskBacklog.enqueue_inOrder entered
      · rw [hq] at entered
        exact triggers ▸ ((h.served hq).enter entered).fifo at_
      · exact fun _ he => nomatch he

section
variable (h : Inv entry w)
include h

lemma manual (hf : f.mode = .manual) (info : RunLockInfo) :
    Inv entry (w.manual entry f info io) := by
  unfold World.manual
  split
  · exact h
  cases free : w.holder with
  | none =>
    have unscheduled : (entry.overlap ≠ .skip && f.mode = .scheduled) = false := by simp [hf]
    have total := h.conserved
    simp only [attempt, free, TaskFire.prepareRunLock, TaskFire.startRun, unscheduled,
      false_eq_true, if_false]
    refine h.congr ?_ rfl rfl rfl nofun
    simpa [Conserved, World.served, free, TaskFire.serving, hf] using total
  | some g =>
    have unscheduled : (entry.overlap ≠ .skip && f.mode = .scheduled) = false := by simp [hf]
    simp only [attempt, free, TaskFire.prepareRunLock, unscheduled, false_eq_true, if_false]
    exact h

lemma drain (now : Timestamp) (info : RunLockInfo) : Inv entry (w.drain now info io) := by
  unfold World.drain
  split
  · exact h
  split
  · rename_i f' b taken
    obtain ⟨info', t, rest, acquired, head, rfl, rfl⟩ := TaskFire.takeBacklog_some taken
    have free : w.holder = none := by
      cases hh : w.holder with
      | none => rfl
      | some g => simp [attempt, hh] at acquired
    have total := h.conserved
    refine ⟨?_, InOrder.tail h.inOrder head, fun hq => ?_, nofun⟩
    · simp only [Conserved, World.served, free, head, weights_cons, toList_none,
        toList_some, flatMap_cons, List.flatMap_nil, append_nil,
        weights_append] at total ⊢
      change _ = _ + (_ + t.weight) + _
      omega
    · have order := (h.served hq).take h.inOrder head
      exact ⟨order.first, order.fifo⟩
  · exact h

lemma reconcile : Inv entry (w.reconcile entry io) := by
  unfold World.reconcile
  split
  · exact h
  rename_i f held
  split
  · exact h
  split
  · rename_i f' b reconciled
    rcases TaskFire.reconcileBacklog_some reconciled with ⟨rfl, rfl⟩ | ⟨hq, hf, hf', empty, count⟩
    · exact held ▸ h
    have total := h.conserved
    refine ⟨?_, ?_, fun hq' => absurd hq' hq, nofun⟩
    · simp only [Conserved, World.served, held, empty, toList_some, flatMap_cons,
        List.flatMap_nil, append_nil, weights_append, weights_serving hf,
        weights_serving hf', count, weights_nil] at total ⊢
      omega
    · rw [TaskBacklog.InOrder, empty]
      exact .nil
  · exact h

lemma spawnBacklogDrain : Inv entry (w.spawnBacklogDrain io) := by
  unfold World.spawnBacklogDrain
  split
  · refine h.congr h.conserved rfl rfl rfl fun waiting free => ?_
    obtain ⟨freed, hfreed, drained⟩ := h.drained waiting free
    refine ⟨freed, hfreed, fun sound => ?_⟩
    obtain ⟨t, ht, later⟩ := drained sound
    exact ⟨t, mem_append_left _ ht, later⟩
  · exact h

lemma mark {b} (triggers : b.triggers = w.backlog.triggers) : Inv entry { w with backlog := b } := by
  refine h.congr ?_ triggers rfl rfl ?_
  · have total := h.conserved
    rw [Conserved] at total ⊢
    rw [triggers]
    exact total
  · intro waiting
    rw [triggers] at waiting
    exact h.drained waiting

lemma release (held : w.holder = some f) {faulty}
    (sound : faulty = false → w.backlog.triggers ≠ [] → w.clock ∈ w.drains) :
    Inv entry (w.release f faulty) := by
  refine h.congr ?_ rfl rfl rfl fun waiting _ => ?_
  · have total := h.conserved
    simpa [Conserved, World.served, World.release, held] using total
  · exact ⟨_, rfl, fun hf => ⟨w.clock, sound hf waiting, le_rfl⟩⟩

end

end Inv

@[simp] lemma spawnBacklogDrain_holder : (w.spawnBacklogDrain io).holder = w.holder := by
  unfold spawnBacklogDrain
  split <;> rfl

@[simp] lemma spawnBacklogDrain_backlog : (w.spawnBacklogDrain io).backlog = w.backlog := by
  unfold spawnBacklogDrain
  split <;> rfl

@[simp] lemma spawnBacklogDrain_clock : (w.spawnBacklogDrain io).clock = w.clock := by
  unfold spawnBacklogDrain
  split <;> rfl

@[simp] lemma takeMark_triggers (b : TaskBacklog) (info : RunLockInfo) :
    (b.takeMark info).triggers = b.triggers := by
  unfold TaskBacklog.takeMark
  split <;> rfl

namespace Inv

section
variable (h : Inv entry w)
include h

lemma spawnAndRelease (held : w.holder = some f) :
    Inv entry ((w.spawnBacklogDrain io).release f (!io.spawned)) := by
  refine h.spawnBacklogDrain.release (by rw [spawnBacklogDrain_holder, held]) fun hs waiting => ?_
  rw [spawnBacklogDrain_backlog] at waiting
  rw [spawnBacklogDrain_clock]
  have spawned : io.spawned = true := by simpa using hs
  simp [World.spawnBacklogDrain, spawned, waiting]

lemma recordAndRelease : Inv entry (w.recordAndRelease io) := by
  unfold World.recordAndRelease
  split
  · exact h
  rename_i f held
  split
  · exact h
  split
  · exact h
  · split
    · exact h.release held nofun
    · exact (h.mark (takeMark_triggers _ _)).spawnAndRelease held

lemma drop : Inv entry (w.drop io) := by
  unfold World.drop
  split
  · exact h
  rename_i f held
  split
  · exact h.release held nofun
  · exact h.spawnAndRelease held

lemma die : Inv entry w.die := by
  unfold World.die
  split
  · exact h
  · rename_i f held
    exact h.release held nofun

lemma stop (cause : StopCause) : Inv entry (w.stop cause io) := by
  unfold World.stop
  split
  · exact h
  · split
    · exact h
    · exact h.mark rfl

lemma appendStopped (info : RunLockInfo) : Inv entry (w.appendStopped info io) := by
  unfold World.appendStopped
  split
  · exact h
  · exact (h.mark (takeMark_triggers _ _)).spawnBacklogDrain

lemma tick : Inv entry (w.tick io) := by
  unfold World.tick
  split
  · exact h.spawnBacklogDrain
  · exact h

end

/-- Every act keeps the invariant. -/
lemma step (hp : entry.overlap ≠ .skip) (h : Inv entry w) (act : Act) :
    Inv entry (w.step entry act) := by
  have acted : Inv entry (w.exec entry act) := by
    cases act with
    | arrive now signal arrivedAt info known throttled io =>
      exact h.arrive hp rfl rfl info known throttled
    | manual now info io => exact h.manual rfl info
    | drain now info io => exact h.drain now info
    | reconcile io => exact h.reconcile
    | recordAndRelease io => exact h.recordAndRelease
    | drop io => exact h.drop
    | die => exact h.die
    | stop cause io => exact h.stop cause
    | appendStopped info io => exact h.appendStopped info
    | tick io => exact h.tick
  exact acted.congr acted.conserved rfl rfl rfl acted.drained

lemma run (hp : entry.overlap ≠ .skip) (acts : List Act) : Inv entry (World.run entry acts) := by
  have fold : ∀ (acts : List Act) (w : World), Inv entry w → Inv entry (acts.foldl (World.step entry) w) := by
    intro acts
    induction acts with
    | nil => exact fun _ h => h
    | cons act acts ih => exact fun w h => ih _ (h.step hp act)
  exact fold acts _ start

end Inv
end World

open World in
/-- Every arrival of a run is refused because the queue is full, lost to a failed call, served or
waiting; a queue is served in arrival order; and triggers that wait for a free run lock have a drain
started since the release, unless the releasing process died or met a failed call. -/
theorem triggers_are_conserved (entry : TaskEntry) (hp : entry.overlap ≠ .skip) (acts : List Act) :
    (World.run entry acts).Conserved
      ∧ (entry.overlap = .queue → (World.run entry acts).ServedInOrder)
      ∧ (World.run entry acts).DrainedUnlessFaulty :=
  have h := Inv.run hp acts
  ⟨h.conserved, h.served, h.drained⟩

/-- One fire runs, the next one waits, the first one ends and a drain serves the second. -/
def twoFires : List Act :=
  [.arrive 1 none none ⟨7, 1⟩ true false ⟨true, true, true⟩,
   .arrive 2 none none ⟨8, 2⟩ true false ⟨true, true, true⟩,
   .recordAndRelease ⟨true, true, true⟩,
   .drain 3 ⟨9, 3⟩ ⟨true, true, true⟩]

/-- Both fires are served, in the order in which they came. -/
theorem two_fires_are_conserved :
    (World.run ⟨.queue, some 1⟩ twoFires).arrivals = 2
      ∧ ((World.run ⟨.queue, some 1⟩ twoFires).services.map (·.trigger.arrivedAt)) = [1, 2]
      ∧ (World.run ⟨.queue, some 1⟩ twoFires).drains = [2]
      ∧ (World.run ⟨.queue, some 1⟩ twoFires).Conserved
      ∧ (World.run ⟨.queue, some 1⟩ twoFires).ServedInOrder
      ∧ (World.run ⟨.queue, some 1⟩ twoFires).DrainedUnlessFaulty := by
  have h := triggers_are_conserved ⟨.queue, some 1⟩ nofun twoFires
  exact ⟨by decide, by decide, by decide, h.1, h.2.1 rfl, h.2.2⟩

/-- The first fire ends and cannot start the drain: `release_run_lock_with` and `record_and_release`
free the run lock all the same, and the second trigger waits for the tick. -/
theorem failed_spawn_leaves_a_trigger_waiting :
    ¬ (World.run ⟨.queue, none⟩
      [.arrive 1 none none ⟨7, 1⟩ true false ⟨true, true, true⟩,
       .arrive 2 none none ⟨8, 2⟩ true false ⟨true, true, true⟩,
       .recordAndRelease ⟨true, true, false⟩]).Drained := by
  intro drained
  obtain ⟨freed, -, t, ht, -⟩ := drained (fun empty => nomatch congrArg List.length empty) rfl
  exact nomatch ht

end Rimz.Schedule
