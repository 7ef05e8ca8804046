import Rimz.Workflow.Settled

/-!
# Sections keep the books

Each section of the engine keeps the invariant of `Settled`: in the record and journal it leaves,
and in what its process takes away from the lock. Only the publication of an attempt hands out a
number.
-/

namespace Rimz.Workflow
open Std Transition

variable {spec : WorkflowSpec} {book : Book} {d d' : Disk} {t t' : Transition}
  {js : List JournalEntry}

/-- The invariant of a run on disk. -/
abbrev Disk.Sound (spec : WorkflowSpec) (book : Book) (d : Disk) : Prop :=
  Workflow.Sound spec book d.record d.journal

/-- What a process may hold outside the lock: an agent's attempt, or that of a check or a command.
An attempt in launch is not the one a restart has settled. -/
def Proc.Sound (book : Book) : Proc → Prop
  | .evaluating r _ | .stepping r _ => ∀ a, r.attempt = some a → a.seq < book.next ∧ ¬book.agent a.seq
  | .launching r _ _ =>
    ∀ a, r.attempt = some a → (a.seq < book.next ∧ book.agent a.seq) ∧ r.settled ≠ some a.seq
  | .pushing r _ | .ending r _ _ => ∀ a, r.attempt = some a → a.seq < book.next ∧ book.agent a.seq
  | _ => True

lemma Proc.Sound.hand {p : Proc} (h : p.Sound book) (isAgent : Prop) :
    p.Sound (book.hand isAgent) := by
  have keep : ∀ {s}, s < book.next ∧ book.agent s →
      s < (book.hand isAgent).next ∧ (book.hand isAgent).agent s := fun h =>
    ⟨Nat.lt_succ_of_lt h.1, (Book.hand_agent h.1).mpr h.2⟩
  have keep' : ∀ {s}, s < book.next ∧ ¬book.agent s →
      s < (book.hand isAgent).next ∧ ¬(book.hand isAgent).agent s := fun h =>
    ⟨Nat.lt_succ_of_lt h.1, fun ha => h.2 ((Book.hand_agent h.1).mp ha)⟩
  cases p with
  | evaluating r l | stepping r l => exact fun a ha => keep' (h a ha)
  | launching r prompt l => exact fun a ha => ⟨keep (h a ha).1, (h a ha).2⟩
  | pushing r l | ending r reason l => exact fun a ha => keep (h a ha)
  | _ => trivial

/-- What a section leaves that hands out no number: the disk, and where its process goes. -/
structure Kept (spec : WorkflowSpec) (book : Book) (d : Disk) (p : Proc) : Prop where
  disk : d.Sound spec book
  proc : p.Sound book

lemma Transition.Sound.persist (h : t.Sound spec book d.journal) :
    (d.persist t).Sound spec book := by
  simp only [Disk.Sound, Disk.persist]
  split
  · next ended =>
    exact Workflow.Sound.bare h (.refl _) rfl (.inr rfl) rfl (h.idle ended).1 (h.idle ended).2
  · exact h

lemma Disk.persist_journal (d : Disk) (ht : t.entries = []) : (d.persist t).journal = d.journal := by
  simp [Disk.persist, ht]

lemma Transition.Sound.write (h : t.Sound spec book d.journal) {p} (proc : p.Sound book) :
    Kept spec book (d.persist t) p :=
  ⟨h.persist, proc⟩

lemma Transition.Sound.start (h : d.Sound spec book) (now : Timestamp) :
    Transition.Sound spec book d.journal { record := d.record, now } := by
  simp only [Transition.Sound, append_nil]
  exact h

/-- A sound transition whose live attempt is an agent's. -/
structure Transition.Live (spec : WorkflowSpec) (book : Book) (js : List JournalEntry)
    (t : Transition) : Prop where
  sound : t.Sound spec book js
  owner : ∀ a, t.record.attempt = some a → book.agent a.seq

namespace Transition

lemma Sound.same (h : t.Sound spec book js) (seqs : SameSeqs t.entries t'.entries)
    (books : t'.record.books = t.record.books) : t'.Sound spec book js :=
  Workflow.Sound.keep h (seqs.prepend js) books

section
variable (h : t.Live spec book js)
include h

lemma Live.same (seqs : SameSeqs t.entries t'.entries) (books : t'.record.books = t.record.books) :
    t'.Live spec book js := by
  refine ⟨h.sound.same seqs books, fun a ha => ?_⟩
  simp only [RunRecord.books, Prod.mk.injEq] at books
  exact h.owner a (books.2.2.2.1 ▸ ha)

lemma Live.snapshot :
    ∀ a, t.record.attempt = some a → a.seq < book.next ∧ book.agent a.seq :=
  fun a ha => ⟨(h.sound.live a ha).handed, h.owner a ha⟩

lemma Live.editAttempt {f} (seq : ∀ a, (f a).seq = a.seq) (node : ∀ a, (f a).node = a.node)
    (kind : ∀ a, (f a).kind = a.kind) (ending : ∀ a, (f a).ending = a.ending) :
    (t.editAttempt f).Live spec book js := by
  rcases ha : t.record.attempt with _ | a
  · have e : t.editAttempt f = t := by
      simp only [Transition.editAttempt, Transition.edit, ha, map_none]
      rw [← ha]
    rw [e]
    exact h
  have e : t.editAttempt f = t.edit fun r => { r with attempt := some (f a) } := by
    simp only [Transition.editAttempt, Transition.edit, ha, map_some]
  rw [e]
  refine ⟨?_, fun b hb => ?_⟩
  · exact Workflow.Sound.editAttempt h.sound ha (seq a) (node a) (kind a) (ending a)
      fun _ => h.owner a ha
  · cases hb
    exact (seq a).symm ▸ h.owner a ha

lemma Live.own (me : Host) : (t.editAttempt fun a => { a with host := me }).Live spec book js :=
  h.editAttempt (fun _ => rfl) (fun _ => rfl) (fun _ => rfl) fun _ => rfl

end

lemma Live.ownWrite (h : t.Live spec book d.journal) (me : Host) (reason : Option String)
    (l : Option Local) :
    Kept spec book (d.persist (t.editAttempt fun a => { a with host := me }))
      (.ending (t.editAttempt fun a => { a with host := me }).record reason l) :=
  (h.own me).sound.write (h.own me).snapshot

lemma stageAgentEnd_entries {ending ask} (staged : t.stageAgentEnd ending ask = some t') :
    t'.entries = t.entries := by
  obtain ⟨a, p, -, -, -, -, e⟩ := stageAgentEnd_spec staged
  subst e
  rfl

lemma Live.stage (h : t.Live spec book js) {ending ask}
    (staged : t.stageAgentEnd ending ask = some t') :
    t'.Live spec book js := by
  have sound := h.sound.stageAgentEnd staged
  obtain ⟨a, p, ha, -, -, -, e⟩ := stageAgentEnd_spec staged
  subst e
  refine ⟨sound, fun b hb => ?_⟩
  cases hb
  exact h.owner a ha

lemma Live.restage (h : t.Live spec book js) {a ending ask}
    (staged : restage t a ending ask = some t') :
    t'.Live spec book js ∧ t'.entries = t.entries := by
  simp only [Workflow.restage] at staged
  split at staged
  · exact ⟨h.stage staged, stageAgentEnd_entries staged⟩
  · cases staged
    exact ⟨h, rfl⟩

lemma hold_spec (attempt : LiveAttempt) (ask : Option Asking) (stopped : Option Stopped)
    (now : Timestamp) :
    ∃ asking heldSince askedMs,
      (attempt.hold ask stopped now).1 = { attempt with asking, heldSince, askedMs } :=
  ⟨_, _, _, rfl⟩

lemma Live.hold (h : t.Live spec book js) {a} (ha : t.record.attempt = some a) (ask : Option Asking)
    (stopped : Option Stopped) (now : Timestamp) :
    (t.edit fun r => { r with attempt := some (a.hold ask stopped now).1 }).Live spec book js := by
  obtain ⟨asking, heldSince, askedMs, e⟩ := hold_spec a ask stopped now
  refine ⟨?_, fun b hb => ?_⟩
  · exact Workflow.Sound.editAttempt h.sound ha rfl rfl rfl rfl (h.sound.live a ha).run
  · cases hb
    exact h.owner a ha

/-- A session becomes held under its first check, which is no step. -/
lemma Live.begin (h : t.Live spec book js) (admitted : spec.Admitted)
    (open_ : ∀ a, t.record.attempt = some a → a.ending = none) {observed}
    (begun : t.begin spec observed = some (some t')) :
    t'.Sound spec book js ∧ t'.entries = t.entries := by
  simp only [Transition.begin, bind, bind_eq_some_iff] at begun
  obtain ⟨a, ha, begun⟩ := begun
  split at begun
  · cases begun
  split at begun
  · cases begun
  simp only [bind_eq_some_iff] at begun
  obtain ⟨step, hstep, check, hcheck, e⟩ := begun
  cases e
  have sound := h.sound
  have live := sound.live a ha
  have named := admitted.thenChecks _ step hstep check (mem_of_head? hcheck)
  refine ⟨⟨sound.nextSeq, sound.attempts, sound.evaluations, sound.attempted, sound.evaluated,
    fun x hx => ?_, fun s hs => ?_, sound.previous, sound.restarted, fun hi => ?_⟩, rfl⟩
  · cases hx
  · cases hs
    have kind := live.kind.mpr (h.owner a ha)
    exact ⟨live.handed, live.node.symm.trans kind, kind, h.owner a ha, open_ a ha,
      fun hs => (live.settled hs).1, admitted.disjoint check named, fun _ hx => by cases hx⟩
  · cases (sound.idle hi).1.symm.trans ha

end Transition

lemma Kept.hold (hd : d.Sound spec book) (h : t.Sound spec book d.journal)
    (entries : t.entries = []) (changed : Bool) {p} (proc : p.Sound book) :
    Kept spec book (if changed then d.persist t else d) p
      ∧ (if changed then d.persist t else d).journal = d.journal := by
  split
  · exact ⟨h.write proc, d.persist_journal entries⟩
  · exact ⟨⟨hd, proc⟩, rfl⟩

/-- What a section that ends in a decision leaves, when the decision publishes nothing. -/
structure Decided (spec : WorkflowSpec) (book : Book) (d : Disk) (decision : Decision) : Prop where
  kept : ∀ l, Kept spec book d (decision.proc spec l)
  handed : decision.handed = []

/-- `agent::prepare_end` keeps the books, and so does what it leaves to its caller. -/
lemma prepareEnd_kept (admitted : spec.Admitted) (hd : d.Sound spec book)
    (h : t.Live spec book d.journal)
    (entries : t.entries = []) {me i decision}
    (done : prepareEnd spec d t me i = some (d', t', decision)) :
    Decided spec book d' decision ∧ d'.journal = d.journal
      ∧ ∀ r, decision = .end_ r → t'.Live spec book d.journal ∧ t'.entries = [] := by
  simp only [prepareEnd, bind, bind_eq_some_iff] at done
  obtain ⟨a, ha, done⟩ := done
  split at done
  · next ending hending =>
    split at done
    · cases done
      exact ⟨⟨fun _ => ⟨hd, trivial⟩, rfl⟩, rfl, fun _ e => by cases e⟩
    simp only [bind_eq_some_iff] at done
    obtain ⟨u, staged, e⟩ := done
    cases e
    obtain ⟨hu, same⟩ := h.restage staged
    exact ⟨⟨fun l => hu.ownWrite me none (some l), rfl⟩, d.persist_journal (same.trans entries),
      fun _ _ => ⟨hu.own me, same.trans entries⟩⟩
  rename_i hending
  have held := Live.hold (t := { t with now := i.observedAt }) ⟨h.sound, h.owner⟩ ha
    (if a.run.isSome then i.observed else {}).ask
    (if a.run.isSome then i.observed else {}).stopped i.observedAt
  split at done
  · obtain ⟨u, staged, done⟩ := bind_eq_some_iff.mp done
    have hu := held.stage staged
    have same := (stageAgentEnd_entries staged).trans entries
    split at done
    · cases done
      exact ⟨⟨fun _ => hu.sound.write trivial, rfl⟩, d.persist_journal same, fun _ e => by cases e⟩
    · cases done
      exact ⟨⟨fun l => hu.ownWrite me none (some l), rfl⟩, d.persist_journal same,
        fun _ _ => ⟨hu.own me, same⟩⟩
  split at done
  · cases done
    have kept := fun l => Kept.hold hd held.sound entries
      (a.hold (if a.run.isSome then i.observed else {}).ask
        (if a.run.isSome then i.observed else {}).stopped i.observedAt).2
      (p := .pushing _ l) held.snapshot
    exact ⟨⟨fun l => (kept l).1, rfl⟩, (kept {}).2, fun _ e => by cases e⟩
  obtain ⟨begun, hbegun, done⟩ := bind_eq_some_iff.mp done
  cases begun with
  | some u =>
    cases done
    obtain ⟨hu, same⟩ := held.begin admitted (fun b hb => by cases hb; exact hending) hbegun
    exact ⟨⟨fun _ => hu.write trivial, rfl⟩, d.persist_journal (same.trans entries),
      fun _ e => by cases e⟩
  | none =>
    cases done
    obtain ⟨kept, journal⟩ := Kept.hold hd held.sound entries _ (p := .idle) trivial
    exact ⟨⟨fun _ => kept, rfl⟩, journal, fun _ e => by cases e⟩

namespace Transition

lemma turnEnd_spec {attempt action verdict reason}
    (ended : t.turnEnd attempt action verdict reason = some t') :
    SameSeqs t.entries t'.entries ∧ t'.record = t.record := by
  obtain ⟨turn, -, e⟩ := bind_eq_some_iff.mp ended
  cases e
  exact ⟨.snoc rfl rfl, rfl⟩

lemma Live.turnEnd (h : t.Live spec book js) {attempt action verdict reason}
    (ended : t.turnEnd attempt action verdict reason = some t') : t'.Live spec book js := by
  obtain ⟨seqs, e⟩ := turnEnd_spec ended
  exact h.same seqs (e ▸ rfl)

lemma capRoute_spec {bound visits max v} (routed : t.capRoute spec bound visits max = some (t', v)) :
    SameSeqs t.entries t'.entries ∧ t'.record = t.record := by
  obtain ⟨target, -, e⟩ := bind_eq_some_iff.mp routed
  cases e
  exact ⟨.snoc rfl rfl, rfl⟩

lemma Sound.restored (h : t.Sound spec book js) (restored : t.restoreSession = some t') :
    t'.Live spec book js := by
  have sound := h.restoreSession restored
  obtain ⟨held, hheld, e⟩ := restoreSession_spec restored
  subst e
  refine ⟨sound, fun a ha => ?_⟩
  cases ha
  exact (h.held held hheld).owner

lemma Sound.interrupted (h : t.Sound spec book js) {reason}
    (interrupted : t.interrupt reason = some t') : t'.Live spec book js := by
  simp only [Transition.interrupt, bind, bind_eq_some_iff] at interrupted
  obtain ⟨held, hheld, u, ended, restored⟩ := interrupted
  have abandoned := h.abandonCheck (h.held held hheld).alone "canceled"
  exact (abandoned.turnEnd ended).restored restored

end Transition

section Until
variable {me : Host} {i : Reading} {seen : List String} {step : UntilStep}

/-- What a held session's part of `prepare` leaves: its section is over, or goes on with nothing to
journal yet. -/
def UntilStep.Kept (spec : WorkflowSpec) (book : Book) (d : Disk) : UntilStep → Prop
  | .decided d' _ decision => Decided spec book d' decision
  | .pass d' t => d'.Sound spec book ∧ d'.journal = d.journal ∧ t.Sound spec book d.journal
    ∧ t.entries = [] ∧ t.record.state = d.record.state

section
variable (h : t.Sound spec book d.journal)
include h

lemma untilEnded_kept {outcome cause reason}
    (done : untilEnded d t me i outcome cause reason = some step) :
    step.Kept spec book d := by
  simp only [untilEnded, bind, bind_eq_some_iff] at done
  obtain ⟨u, interrupted, v, staged, e⟩ := done
  cases e
  have ended := (h.interrupted interrupted).stage staged
  exact ⟨fun l => ended.ownWrite me none (some l), rfl⟩

lemma untilMovedOn_kept {held} (hheld : t.record.held = some held)
    (done : untilMovedOn d t held = some step) : step.Kept spec book d := by
  simp only [untilMovedOn, bind, bind_eq_some_iff] at done
  obtain ⟨u, ended, v, restored, e⟩ := done
  cases e
  have abandoned := h.abandonCheck (h.held held hheld).alone "canceled"
  have closed := abandoned.waited (closeWait_waited _)
  have back := (closed.turnEnd ended).restored restored
  exact ⟨fun _ => back.sound.write trivial, rfl⟩

lemma untilWaits_kept {held} (hheld : t.record.held = some held) {verdict}
    (done : untilWaits spec d t seen held verdict = some step) : step.Kept spec book d := by
  simp only [untilWaits, bind, bind_eq_some_iff] at done
  obtain ⟨u, merged, v, ended, done⟩ := done
  have waited := mergeWait_waited merged
  have session : u.record.held = some held := by
    obtain ⟨wait, recheckAt, e⟩ := waited.record
    rw [e]
    exact hheld
  have asked := Workflow.Sound.editHeld (h.waited waited) session (k :=
    { held with attempt := { held.attempt with woken := false }, verdict := none }) rfl rfl rfl rfl
  have kept : v.Sound spec book d.journal := by
    refine Transition.Sound.turnEnd ?_ ended
    exact asked
  split at done
  · cases done
    refine ⟨fun _ => Transition.Sound.write ?_ trivial, rfl⟩
    exact kept.same (.refl _) rfl
  · cases done
    exact ⟨fun _ => kept.write trivial, rfl⟩

lemma untilPushBack_kept {verdict} (done : untilPushBack spec d t me i verdict = some step) :
    step.Kept spec book d := by
  simp only [untilPushBack, bind, bind_eq_some_iff] at done
  obtain ⟨u, restored, definition, -, done⟩ := done
  have back := (h.waited (closeWait_waited t)).restored restored
  split at done
  · simp only [bind_eq_some_iff, Prod.exists] at done
    obtain ⟨v, route, routed, w, staged, e⟩ := done
    cases e
    obtain ⟨seqs, e⟩ := capRoute_spec routed
    have capped : v.Live spec book d.journal := back.same seqs (e ▸ rfl)
    exact ⟨fun l => (capped.stage staged).ownWrite me none (some l), rfl⟩
  simp only [bind_eq_some_iff] at done
  obtain ⟨attempt, ha, v, ended, e⟩ := done
  cases e
  have pushed : v.Live spec book d.journal := by
    refine Live.turnEnd ⟨?_, fun b hb => ?_⟩ ended
    · have edited := fun visit => Workflow.Sound.editAttempt back.sound ha (b := { attempt with
        visit, push := some ⟨i.message, false⟩ }) rfl rfl rfl rfl (back.sound.live attempt ha).run
      exact Workflow.Sound.keep (edited _) (.refl _) rfl
    · cases hb
      exact back.owner attempt ha
  exact ⟨fun l => pushed.sound.write pushed.snapshot, rfl⟩

end

lemma untilMoves_kept (admitted : spec.Admitted) (h : t.Sound spec book d.journal) {held}
    (hheld : t.record.held = some held) {verdict definition}
    (hstep : spec.steps[held.attempt.node]? = some definition)
    (mem : verdict.target ∈ definition.then_)
    (done : untilMoves d t seen held verdict = some step) : step.Kept spec book d := by
  obtain ⟨u, ended, e⟩ := bind_eq_some_iff.mp done
  cases e
  have closed := (h.waited (closeWait_waited t)).turnEnd ended
  have session : u.record.held = some held := by
    rw [(turnEnd_spec ended).2, closeWait_record]
    exact hheld
  have check := admitted.disjoint _ (admitted.thenChecks _ definition hstep _ mem)
  have kept :=
    Workflow.Sound.editHeld closed session (k := { held with verdict := none }) rfl rfl rfl rfl
  have moved := Workflow.Sound.moveHeld kept rfl check
  refine ⟨fun _ => Transition.Sound.write ?_ trivial, rfl⟩
  exact Workflow.Sound.keep moved (.refl _) rfl

lemma untilCloses_kept (h : t.Sound spec book d.journal) {verdict}
    (done : untilCloses d t me i verdict = some step) : step.Kept spec book d := by
  simp only [untilCloses, bind, bind_eq_some_iff] at done
  obtain ⟨u, restored, v, staged, e⟩ := done
  cases e
  have closed := (h.restored restored).stage staged
  exact ⟨fun l => closed.ownWrite me none (some l), rfl⟩

/-- `until::prepare` keeps the books. -/
lemma untilPrepare_kept (admitted : spec.Admitted) (hd : d.Sound spec book)
    (h : t.Sound spec book d.journal) (entries : t.entries = [])
    (state : t.record.state = d.record.state)
    (done : untilPrepare spec d t me i seen = some step) : step.Kept spec book d := by
  simp only [untilPrepare, bind, bind_eq_some_iff] at done
  obtain ⟨held, hheld, run, -, done⟩ := done
  obtain ⟨asking, heldSince, askedMs, e⟩ := hold_spec held.attempt i.observed.ask i.observed.stopped
    i.observedAt
  have hu : Transition.Sound spec book d.journal ({ t with now := i.observedAt }.edit fun r =>
      { r with held := some { held with attempt := (held.attempt.hold i.observed.ask
        i.observed.stopped i.observedAt).1 } }) :=
    Workflow.Sound.editHeld h hheld (e ▸ rfl) (e ▸ rfl) (e ▸ rfl) (e ▸ rfl)
  -- A hold is written when it changed, before anything is journaled.
  have quiet : ∀ changed, UntilStep.Kept spec book d
      (.decided (if changed = true then d.persist _ else d) seen .stop) := fun changed =>
    ⟨fun _ => (Kept.hold hd hu entries changed (p := .idle) trivial).1, rfl⟩
  split at done
  · exact untilEnded_kept hu done
  split at done
  · exact untilEnded_kept hu done
  split at done
  · exact untilMovedOn_kept hu rfl done
  split at done
  · cases done
    obtain ⟨kept, journal⟩ := Kept.hold hd hu entries _ (p := .idle) trivial
    exact ⟨kept.disk, journal, hu, entries, state⟩
  split at done
  · exact untilWaits_kept hu rfl done
  split at done
  · split at done
    · cases done
      exact quiet _
    · exact untilPushBack_kept hu done
  obtain ⟨definition, hstep, done⟩ := bind_eq_some_iff.mp done
  split at done
  · next mem =>
    split at done
    · cases done
      exact quiet _
    · exact untilMoves_kept admitted hu rfl hstep mem done
  · split at done
    · cases done
      exact quiet _
    · exact untilCloses_kept hu done

end Until

section Prepare
variable {me : Host} {i : Reading} {l : Local} {step : NodeStep}

/-- What the preparation of a node leaves: its section is over, or the attempt may be published. -/
def NodeStep.Kept (spec : WorkflowSpec) (book : Book) (d : Disk) (t : Transition) : NodeStep → Prop
  | .decided d' _ decision => Decided spec book d' decision
  | .pass t' _ _ => t'.Sound spec book d.journal ∧ t'.record.state = t.record.state

lemma Transition.Sound.decide (h : t.Sound spec book d.journal) {decision}
    (proc : ∀ l, (decision.proc spec l).Sound book) (handed : decision.handed = []) :
    Decided spec book (d.persist t) decision :=
  ⟨fun l => h.write (proc l), handed⟩

/-- Everything the preparation of a node can do: it decides without a write, waits, leaves the step
by the route of a wait that gives up or of a spent visit bound, or passes on with room for a
visit. -/
inductive Prepares (spec : WorkflowSpec) (d : Disk) (t : Transition) : NodeStep → Prop where
  | stops (l : Local) : Prepares spec d t (.decided d l .stop)
  | asks (l : Local) (seq : Nat) (node : String) : Prepares spec d t (.decided d l (.askCapacity seq node))
  | evicts (l : Local) (record : RunRecord) : Prepares spec d t (.decided d l (.evict record))
  | waits (l : Local) (now : Timestamp) (outcome : String) (detail : Option String)
      {f : RunRecord → RunRecord} (wait : ∀ r, ∃ wait recheckAt, f r = { r with wait, recheckAt }) :
      Prepares spec d t (.decided (d.persist (({ t with now }.stepWait outcome detail).edit f)) l .stop)
  | gives (l : Local) (now : Timestamp) {step : Step} {wait : Wait} {target object u}
      (hstep : spec.steps[t.record.node]? = some step)
      (agent : step.kind = some .agent) (hwait : t.record.wait = some wait)
      (waits : wait.outcome = "capacity") (ends : wait.givesUpAt.isSome = true)
      (goes : spec.target t.record.node "capacity" = some target)
      (routed : { t with now }.engineRoute spec "capacity" object target .user = some u) :
      Prepares spec d t (.decided (d.persist u) l .again)
  | caps (l : Local) {step bound visits max u route v} (hstep : spec.steps[t.record.node]? = some step)
      (spent : step.trippedVisitBound t.record = some (bound, visits, max))
      (capped : t.capRoute spec bound visits max = some (u, route))
      (routed : u.route spec route.target route.object route.reason = some v) :
      Prepares spec d t (.decided (d.persist v) l .again)
  | passes (l : Local) (now : Timestamp) (error : Option String) {u} (closed : u = t ∨ u = t.closeWait)
      (room : ∀ step, spec.steps[t.record.node]? = some step → step.trippedVisitBound t.record = none) :
      Prepares spec d t (.pass { u with now } l error)

section Agent
variable {definition : Step} (hstep : spec.steps[t.record.node]? = some definition)
  (agent : definition.kind = some .agent) (room : definition.trippedVisitBound t.record = none)
include hstep agent room

lemma prepareCapacity_prepares {now}
    (done : prepareCapacity spec d { t with now } l definition = some step) :
    Prepares spec d t step := by
  have passes (l error) : Prepares spec d t (.pass { t with now } l error) :=
    .passes l now error (.inl rfl) fun other hother => by cases hstep.symm.trans hother; exact room
  simp only [prepareCapacity] at done
  split at done
  · cases done
    exact passes _ _
  split at done
  · next wait hwait =>
    simp only [bind, bind_eq_some_iff] at done
    obtain ⟨target, goes, u, routed, e⟩ := done
    cases e
    simp only [filter_eq_some_iff, and_eq_true, decide_eq_true_eq] at hwait
    obtain ⟨⟨some, -, waits⟩, gives⟩ := hwait
    obtain ⟨at_, ends, -⟩ := (any_eq_true _ _).mp gives
    exact .gives _ now hstep agent some waits (ends ▸ rfl) goes routed
  · split at done
    · cases done
      exact .asks ..
    · cases done
      exact .waits _ now "capacity" _ fun r => ⟨_, _, rfl⟩
    · cases done
      exact passes _ _

lemma prepareAgentStep_prepares (done : prepareAgentStep spec d t i l definition = some step) :
    Prepares spec d t step := by
  have waits (l outcome detail) : Prepares spec d t (.decided (d.persist (t.stepWait outcome detail)) l .stop) :=
    .waits l t.now outcome detail fun r => ⟨_, _, rfl⟩
  unfold prepareAgentStep at done
  extract_lets error window eviction admission l' u launch at done
  clear_value window eviction
  split at done
  · cases done
    exact waits _ _ _
  clear_value error
  have launched : ∀ error evict, launch error evict = some step → Prepares spec d t step := by
    intro error evict hl
    simp only [launch] at hl
    split at hl
    · cases hl
      exact .passes _ _ _ (.inl rfl) fun other hother => by cases hstep.symm.trans hother; exact room
    obtain ⟨capacity, hcapacity, hl⟩ := bind_eq_some_iff.mp hl
    have prepares := prepareCapacity_prepares hstep agent room hcapacity
    cases capacity with
    | decided d' l' decision =>
      cases hl
      exact prepares
    | pass u l' error =>
      dsimp only at hl
      split at hl
      · cases hl
        exact .evicts ..
      · cases hl
        cases prepares with
        | passes _ now _ closed room => exact .passes _ now _ closed room
  clear_value launch
  split at done
  · exact launched _ _ done
  · exact launched _ _ done
  split at done
  · exact launched _ _ done
  · cases done
    exact waits _ _ _
  split at done
  · exact launched _ _ done
  · cases done
    exact waits _ _ _

end Agent

lemma prepareCheck_prepares (check : Check) (none : spec.steps[t.record.node]? = none) :
    Prepares spec d t (prepareCheck d t i l check) := by
  have room (step) (hstep : spec.steps[t.record.node]? = some step) :
      step.trippedVisitBound t.record = Option.none := by cases none.symm.trans hstep
  simp only [prepareCheck]
  split
  · next detail _ => exact .waits _ t.now "window" (some detail) fun r => ⟨_, _, rfl⟩
  split
  · split
    · exact .stops _
    · exact .passes _ _ _ (.inr rfl) room
  · split
    · exact .stops _
    · exact .passes _ _ _ (.inl rfl) room

lemma prepareNode_prepares (done : prepareNode spec d t i l = some step) :
    Prepares spec d t step := by
  simp only [prepareNode] at done
  split at done
  · next definition _ hstep =>
    simp only [prepareStep] at done
    split at done
    · next spent =>
      split at done
      · cases done
        exact .stops _
      simp only [bind, bind_eq_some_iff, Prod.exists] at done
      obtain ⟨u, route, capped, v, routed, e⟩ := done
      cases e
      exact .caps _ hstep spent capped routed
    · next room =>
      split at done
      · next agent => exact prepareAgentStep_prepares hstep agent room done
      · cases done
        exact .passes _ t.now _ (.inl rfl) fun other hother => by cases hstep.symm.trans hother; exact room
  · next none _ =>
    cases done
    exact prepareCheck_prepares _ none
  · cases done

lemma prepareNode_kept (hd : d.Sound spec book) (h : t.Sound spec book d.journal)
    (done : prepareNode spec d t i l = some step) : step.Kept spec book d t := by
  cases prepareNode_prepares done with
  | waits l now outcome detail wait =>
    exact ((h.clock now).waited ((stepWait_waited outcome detail).edit wait)).decide (fun _ => trivial) rfl
  | gives l now _ _ _ _ _ _ routed =>
    exact ((h.clock now).engineRoute routed).decide (fun _ => trivial) rfl
  | caps l _ _ capped routed =>
    exact ((h.capRoute capped).route routed).decide (fun _ => trivial) rfl
  | passes l now error closed room =>
    rcases closed with rfl | rfl
    · exact ⟨h, rfl⟩
    · refine ⟨(h.waited (closeWait_waited t)).clock now, ?_⟩
      rw [closeWait_record]
  | _ => exact ⟨fun _ => ⟨hd, trivial⟩, rfl⟩

/-- What `prepare` leaves: no number is handed out, or the next one. -/
inductive Prepared (spec : WorkflowSpec) (book : Book) (d : Disk) (l : Local)
    (decision : Decision) : Prop where
  | kept (kept : Kept spec book d (decision.proc spec l)) (handed : decision.handed = [])
  | handed (isAgent : Prop) (kept : Kept spec (book.hand isAgent) d (decision.proc spec l))
      (handed : decision.handed = [book.next])

lemma countVisit_books (t : Transition) :
    Waited t t.closeWait ∧ (countVisit t).entries = t.closeWait.entries
      ∧ (countVisit t).record.books = t.record.books := by
  refine ⟨closeWait_waited t, rfl, ?_⟩
  change t.closeWait.record.books = _
  rw [closeWait_record]
  rfl

lemma attemptKind_check {node} (check : spec.steps.contains node = false) :
    attemptKind spec node ≠ .agent := by
  simp only [attemptKind, ExtTreeMap.getElem?_eq_none_of_contains_eq_false check]
  cases spec.checks[node]? with
  | none => exact nofun
  | some check =>
    dsimp only
    split <;> exact nofun

lemma stageOversized_spec {a} (ha : t.record.attempt = some a)
    (staged : stageOversized t l = some t') :
    (t.Sound spec book js → t'.Sound spec book js) ∧ t'.record.restart = t.record.restart
      ∧ ∃ b, t'.record.attempt = some b ∧ b.seq = a.seq := by
  simp only [stageOversized] at staged
  split at staged
  · refine ⟨fun h => h.stageAgentEnd staged, ?_⟩
    obtain ⟨b, p, hb, -, -, -, e⟩ := stageAgentEnd_spec staged
    subst e
    cases ha.symm.trans hb
    exact ⟨rfl, _, rfl, rfl⟩
  · cases staged
    exact ⟨id, rfl, a, ha, rfl⟩

/-- The publication hands out the next number. -/
lemma publish_prepared (h : t.Sound spec book d.journal) (active : t.record.state = .active)
    {error l' decision} (done : publish spec d t me i l error = some (d', l', decision)) :
    Prepared spec book d' l' decision := by
  obtain ⟨v, staged, done⟩ := bind_eq_some_iff.mp done
  obtain ⟨u, hu⟩ : ∃ u, (if spec.steps.contains t.record.node then countVisit t else t) = u :=
    ⟨_, rfl⟩
  rw [hu] at staged done
  have counted : u.Sound spec book d.journal ∧ u.record.state = .active := by
    rw [← hu]
    split
    · obtain ⟨waited, entries, books⟩ := countVisit_books t
      simp only [RunRecord.books, Prod.mk.injEq] at books
      refine ⟨h.same ?_ (countVisit_books t).2.2, books.2.2.2.2.2.2.trans active⟩
      exact waited.seqs
    · exact ⟨h, active⟩
  have fresh := Workflow.Sound.hand counted.1 counted.2 (a := newAttempt spec u me) counted.1.nextSeq
    rfl rfl rfl rfl fun held => by
      obtain ⟨s, hs⟩ := isSome_iff_exists.mp held
      exact attemptKind_check (counted.1.held s hs).node
  obtain ⟨keep, restart, b, hb, seq⟩ := stageOversized_spec (a := newAttempt spec u me) rfl staged
  have written := keep fresh
  have number : b.seq = book.next := seq.trans counted.1.nextSeq
  have handed : (v.record.attempt.map LiveAttempt.seq).toList = [book.next] := by
    rw [hb, map_some, toList_some, number]
  have first : v.record.settled ≠ some b.seq := by
    rw [RunRecord.settled, restart]
    intro hs
    exact absurd (counted.1.restarted _ hs) (number ▸ Nat.lt_irrefl _)
  split at done
  · next agent =>
    cases done
    refine .handed _ (written.write fun a ha => ?_) handed
    cases hb.symm.trans ha
    exact ⟨⟨(written.live b hb).handed, number ▸ (Book.hand_next _ _).mpr agent⟩, first⟩
  rename_i check
  cases done
  refine .handed _ (written.write ?_) handed
  have held : ∀ a, v.record.attempt = some a → a.seq < (book.hand _).next ∧ ¬(book.hand _).agent a.seq :=
    fun a ha => by
      cases hb.symm.trans ha
      exact ⟨(written.live b hb).handed, number ▸ fun h => check ((Book.hand_next _ _).mp h)⟩
  simp only [Decision.proc]
  split
  all_goals exact held

lemma Decided.prepared {decision} (h : Decided spec book d decision) (l : Local) :
    Prepared spec book d l decision :=
  .kept (h.kept l) h.handed

lemma afterBound_prepared (h : t.Sound spec book d.journal) {again l' decision}
    (e : afterBound d t l again = (d', l', decision)) : Prepared spec book d' l' decision := by
  obtain ⟨rfl, -, rfl⟩ := e
  split
  all_goals exact .kept (h.write trivial) rfl

lemma prepareOn_prepared (hd : d.Sound spec book) (h : t.Sound spec book d.journal)
    (active : t.record.state = .active) (check : ∀ a, t.record.attempt = some a → ¬book.agent a.seq)
    {l' decision} (done : prepareOn spec d t me i l = some (d', l', decision)) :
    Prepared spec book d' l' decision := by
  simp only [prepareOn, bind, bind_eq_some_iff, Prod.exists] at done
  obtain ⟨bounded, due, hbound, done⟩ := done
  split at done
  · exact afterBound_prepared (h.bound hbound) (Option.some.inj done)
  split at done
  · split at done
    · cases done
      exact .kept ⟨hd, trivial⟩ rfl
    obtain ⟨⟨u, settled⟩, finished, e⟩ := bind_eq_some_iff.mp done
    cases e
    exact .kept ((h.finishScript check finished).write trivial) rfl
  split at done
  · cases done
    refine .kept (Transition.Sound.write ?_ trivial) rfl
    split
    · exact h.same (.refl _) rfl
    · exact h
  obtain ⟨node, hnode, done⟩ := bind_eq_some_iff.mp done
  have kept := prepareNode_kept hd h hnode
  cases node with
  | decided d' l' decision =>
    cases done
    exact Decided.prepared kept _
  | pass u l' error =>
    simp only [bind_eq_some_iff, Prod.exists] at done
    obtain ⟨sound, state⟩ := kept
    obtain ⟨bounded, due, hbound, done⟩ := done
    have timed := sound.clock i.launchAt
    split at done
    · exact afterBound_prepared (timed.bound hbound) (Option.some.inj done)
    · exact publish_prepared timed (state.trans active) done

lemma prepareHeld_kept (admitted : spec.Admitted) (hd : d.Sound spec book)
    (h : t.Sound spec book d.journal)
    (entries : t.entries = []) (state : t.record.state = d.record.state) {step}
    (done : prepareHeld spec d t me i l = some step) : step.Kept spec book d := by
  simp only [prepareHeld] at done
  split at done
  · exact untilPrepare_kept admitted hd h entries state done
  · cases done
    exact ⟨hd, rfl, h, entries, state⟩

/-- `prepare` keeps the books. -/
lemma prepare_prepared (admitted : spec.Admitted) (hd : d.Sound spec book) {l' decision}
    (done : prepare spec d me i l = some (d', l', decision)) :
    Prepared spec book d' l' decision := by
  simp only [prepare] at done
  split at done
  · cases done
    exact .kept ⟨hd, trivial⟩ rfl
  rename_i active
  simp only [bind, bind_eq_some_iff] at done
  obtain ⟨step, hstep, done⟩ := done
  have kept := prepareHeld_kept admitted hd (.start hd i.now) rfl rfl hstep
  cases step with
  | decided d' seen decision =>
    cases done
    exact Decided.prepared kept _
  | pass e u =>
    obtain ⟨disk, journal, sound, entries, state⟩ := kept
    rw [← journal] at sound
    dsimp only at done
    split at done
    · next agent =>
      simp only [bind_eq_some_iff, Prod.exists] at done
      obtain ⟨d', u', decision, ended, e⟩ := done
      cases e
      have owner : ∀ a, u.record.attempt = some a → book.agent a.seq := by
        intro a ha
        rw [ha, any_some, decide_eq_true_eq] at agent
        exact (sound.live a ha).kind.mp agent
      exact (prepareEnd_kept admitted disk ⟨sound, owner⟩ entries ended).1.prepared _
    · next other =>
      refine prepareOn_prepared disk sound ?_ (fun a ha hag => other ?_) done
      · exact state.trans (not_not.mp active)
      · rw [ha, any_some, decide_eq_true_eq]
        exact (sound.live a ha).kind.mpr hag

end Prepare

/-- What a section leaves that goes on without a decision. -/
def Followed (spec : WorkflowSpec) (book : Book) (d : Disk) (next : Next) : Prop :=
  ∀ l, Kept spec book d (next.proc l)

lemma Kept.followed {next} (h : d.Sound spec book) (quiet : next = .stop ∨ next = .advance) :
    Followed spec book d next := by
  intro l
  rcases quiet with e | e
  · exact e ▸ ⟨h, trivial⟩
  · subst e
    cases l <;> exact ⟨h, trivial⟩

section Results
variable {me : Host} {i : Reading} {record : RunRecord} {next : Next}

lemma finishEvaluation_sound (h : t.Sound spec book js) {attempt} (check : ¬book.agent attempt.seq)
    {result retry} (done : finishEvaluation spec t attempt result = some (t', retry)) :
    t'.Sound spec book js := by
  simp only [finishEvaluation] at done
  split at done
  · exact h.finishJudge check done
  · simp only [map_eq_some_iff, Prod.mk.injEq] at done
    obtain ⟨u, finished, e, -⟩ := done
    exact e ▸ h.finishCheck check finished

lemma takeResult_sound (h : t.Sound spec book js) {attempt} (check : ¬book.agent attempt.seq)
    {seen seen' result rechecked}
    (done : takeResult spec t record attempt seen result = some (t', seen', rechecked)) :
    t'.Sound spec book js := by
  simp only [takeResult, bind, bind_eq_some_iff, Prod.exists] at done
  obtain ⟨u, retry, finished, done⟩ := done
  have sound := finishEvaluation_sound h check finished
  split at done
  · cases done
    exact sound.same (.refl _) rfl
  · cases done
    exact sound

lemma ite_quiet {p} [Decidable p] {a b : Next} (ha : a = .stop ∨ a = .advance)
    (hb : b = .stop ∨ b = .advance) :
    (if p then a else b) = .stop ∨ (if p then a else b) = .advance := by
  split
  · exact ha
  · exact hb

lemma evaluated_followed (hd : d.Sound spec book)
    (held : ∀ a, record.attempt = some a → a.seq < book.next ∧ ¬book.agent a.seq)
    {seen seen' : List String}
    {result} (done : evaluated spec d i record seen result = some (d', seen', next)) :
    Followed spec book d' next := by
  simp only [evaluated, bind, bind_eq_some_iff] at done
  obtain ⟨attempt, hattempt, done⟩ := done
  have start := Transition.Sound.start hd i.now
  split at done
  · cases done
    exact Kept.followed hd (.inl rfl)
  simp only [bind_eq_some_iff, Prod.exists] at done
  obtain ⟨bounded, due, hbound, u, seen, rechecked, taken, e⟩ := done
  cases e
  have sound : u.Sound spec book d.journal := by
    split at taken
    · cases taken
      exact start.bound hbound
    · exact takeResult_sound start (held attempt hattempt).2 taken
  exact Kept.followed sound.persist (ite_quiet (.inl rfl) (.inr rfl))

lemma commandEnded_followed (hd : d.Sound spec book)
    (held : ∀ a, record.attempt = some a → a.seq < book.next ∧ ¬book.agent a.seq)
    {result : CommandEnd} (done : commandEnded spec d i record result = some (d', next)) :
    Followed spec book d' next := by
  simp only [commandEnded, bind, bind_eq_some_iff] at done
  obtain ⟨attempt, hattempt, done⟩ := done
  split at done
  · cases done
    exact Kept.followed hd (.inl rfl)
  rename_i cur
  simp only [not_eq_true', not_eq_false] at cur
  obtain ⟨-, a, ha, seq⟩ := current_attempt cur
  obtain ⟨⟨u, settled⟩, finished, e⟩ := bind_eq_some_iff.mp done
  cases e
  have sound := (Transition.Sound.start hd i.now).finishScript (fun b hb => by
    cases ha.symm.trans hb
    exact seq ▸ (held attempt hattempt).2) finished
  exact Kept.followed sound.persist (ite_quiet (.inr rfl) (.inl rfl))

lemma Transition.Sound.current_live (h : t.Sound spec book js) {seq} (cur : t.current seq = true)
    (owner : book.agent seq) : t.Live spec book js ∧ t.record.held = none := by
  obtain ⟨-, a, ha, e⟩ := current_attempt cur
  subst e
  refine ⟨⟨h, fun b hb => ?_⟩, ?_⟩
  · cases ha.symm.trans hb
    exact owner
  · cases hs : t.record.held with
    | none => rfl
    | some s => exact absurd owner ((h.held s hs).alone a ha)

lemma stageFailed_live (h : t.Live spec book js) {failure}
    (staged : stageFailed t record failure = some t') : t'.Live spec book js := by
  simp only [stageFailed] at staged
  split at staged
  · exact h.stage staged
  · cases staged
    exact h

lemma ownEnd_followed (h : t.Live spec book d.journal) (me : Host) (reason : Option String)
    (e : ownEnd me d t reason = (d', next)) : Followed spec book d' next := by
  obtain ⟨rfl, rfl⟩ := e
  exact fun l => h.ownWrite me reason l

lemma launched_followed (admitted : spec.Admitted) (hd : d.Sound spec book)
    (held : ∀ a, record.attempt = some a →
      (a.seq < book.next ∧ book.agent a.seq) ∧ record.settled ≠ some a.seq)
    {result} (done : launched spec d me i record result = some (d', next)) :
    Followed spec book d' next := by
  simp only [launched, bind, bind_eq_some_iff] at done
  obtain ⟨attempt, hattempt, done⟩ := done
  obtain ⟨⟨-, owner⟩, first⟩ := held attempt hattempt
  split at done
  · cases done
    exact Kept.followed hd (.inl rfl)
  rename_i cur
  simp only [not_eq_true', not_eq_false] at cur
  have start := Transition.Sound.start hd i.now
  obtain ⟨live, alone⟩ := start.current_live cur owner
  obtain ⟨-, a, ha, seq⟩ := current_attempt cur
  generalize hu : (if record.restart.isSome = true ∧ d.record.restart = record.restart then
    Transition.edit { record := d.record, now := i.now } fun r => { r with restart := none }
    else { record := d.record, now := i.now }) = u at done
  have cleared : u.Live spec book d.journal ∧ u.entries = [] := by
    rw [← hu]
    split
    · next same =>
      -- The restart that the launch carried names no live attempt.
      have fresh : ∀ b, d.record.attempt = some b → b.seq ∉ attemptSeqs (d.journal ++ []) := by
        intro b hb hs
        cases ha.symm.trans hb
        have settled := ((start.live a ha).settled hs).1
        rw [RunRecord.settled, same.2] at settled
        exact first (seq ▸ settled)
      have none := Workflow.Sound.setRestart start alone fresh none fun _ e => by cases e
      exact ⟨⟨none, live.owner⟩, rfl⟩
    · exact ⟨live, rfl⟩
  obtain ⟨cleared, entries⟩ := cleared
  cases result with
  | error failure =>
    obtain ⟨v, staged, e⟩ := bind_eq_some_iff.mp done
    exact ownEnd_followed (stageFailed_live cleared staged) me _ (Option.some.inj e)
  | ok run =>
    have ran := cleared.editAttempt (f := fun a => { a with run := some run }) (fun _ => rfl)
      (fun _ => rfl) (fun _ => rfl) fun _ => rfl
    have journal := d.persist_journal (t := u.editAttempt fun a => { a with run := some run }) entries
    have written := ran.sound.persist
    rw [← journal] at ran
    dsimp only at done
    split at done
    · simp only [bind_eq_some_iff, Prod.exists] at done
      obtain ⟨e, v, decision, ended, done⟩ := done
      obtain ⟨decided, same, stop⟩ := prepareEnd_kept admitted written ran entries ended
      split at done
      · cases done
        exact Kept.followed (decided.kept {}).disk (.inr rfl)
      · refine ownEnd_followed ?_ me none (Option.some.inj done)
        rw [same]
        exact (stop _ rfl).1
      · cases done
        exact Kept.followed (decided.kept {}).disk (.inl rfl)
    · exact ownEnd_followed ran me none (Option.some.inj done)

lemma finished_followed (hd : d.Sound spec book)
    (held : ∀ a, record.attempt = some a → a.seq < book.next ∧ book.agent a.seq)
    {reason : Option String}
    {orphan} (done : finished spec d i record reason orphan = some (d', next)) :
    Followed spec book d' next := by
  simp only [finished, bind, bind_eq_some_iff] at done
  obtain ⟨attempt, hattempt, detached, -, done⟩ := done
  split at done
  · cases done
    exact Kept.followed hd (.inl rfl)
  rename_i cur
  simp only [or_eq_true, not_or, not_eq_true', not_eq_false] at cur
  obtain ⟨live, alone⟩ := (Transition.Sound.start hd i.now).current_live cur.1
    (held attempt hattempt).2
  simp only [bind_eq_some_iff] at done
  obtain ⟨now, hnow, detaching, -, done⟩ := done
  split at done
  · cases done
    exact fun l => ⟨hd, live.snapshot⟩
  obtain ⟨u, settled, e⟩ := bind_eq_some_iff.mp done
  cases e
  have ran := live.editAttempt (f := fun a => { a with run := attempt.run.or orphan })
    (fun _ => rfl) (fun _ => rfl) (fun _ => rfl) fun _ => rfl
  have sound := ran.sound.settleAgent alone settled
  exact Kept.followed sound.persist (ite_quiet (.inr rfl) (.inl rfl))

lemma pushed_followed (hd : d.Sound spec book)
    (held : ∀ a, record.attempt = some a → a.seq < book.next ∧ book.agent a.seq) {queued}
    (done : pushed d i record queued = some (d', next)) : Followed spec book d' next := by
  simp only [pushed, bind, bind_eq_some_iff] at done
  obtain ⟨attempt, hattempt, push, -, done⟩ := done
  split at done
  · cases done
    exact Kept.followed hd (.inl rfl)
  rename_i cur
  simp only [or_eq_true, not_or, not_eq_true', not_eq_false] at cur
  obtain ⟨live, -⟩ := (Transition.Sound.start hd i.now).current_live cur.2
    (held attempt hattempt).2
  split at done
  · cases done
    exact Kept.followed hd (.inl rfl)
  split at done
  · cases done
    exact Kept.followed hd (.inr rfl)
  cases done
  have marked := fun push => live.editAttempt (f := fun a => { a with push }) (fun _ => rfl)
    (fun _ => rfl) (fun _ => rfl) fun _ => rfl
  exact Kept.followed (marked _).sound.persist (.inr rfl)

end Results

section Commands
variable {me : Host} {i : Reading} {next : Next}

lemma abandonCheck_record (t : Transition) (outcome : String) :
    (t.abandonCheck outcome).record = { t.record with attempt := none } := by
  simp only [Transition.abandonCheck]
  cases ha : t.record.attempt with
  | none =>
    dsimp only
    rw [← ha]
  | some a => rfl

/-- A command finds no session held once it has interrupted it, and the session's agent in the
slot. -/
lemma interruptHeld_sound (h : t.Sound spec book js) {reason}
    (done : interruptHeld t reason = some t') :
    t'.Sound spec book js ∧ t'.record.held = none ∧ t'.record.restart = t.record.restart
      ∧ (t.record.held = none ∧ t' = t
        ∨ t'.Live spec book js ∧ attemptKind spec t'.record.node = .agent) := by
  simp only [interruptHeld] at done
  split at done
  · have live := h.interrupted done
    simp only [Transition.interrupt, bind, bind_eq_some_iff] at done
    obtain ⟨held, hheld, u, ended, restored⟩ := done
    have abandoned := h.abandonCheck (h.held held hheld).alone "canceled"
    obtain ⟨-, e⟩ := turnEnd_spec ended
    obtain ⟨held', hheld', e'⟩ := restoreSession_spec restored
    subst e'
    refine ⟨live.sound, rfl, ?_, .inr ⟨live, ((abandoned.turnEnd ended).held held' hheld').step⟩⟩
    change u.record.restart = _
    rw [e, abandonCheck_record]
  · next none =>
    cases done
    have alone := not_isSome_iff_eq_none.mp none
    exact ⟨h, alone, rfl, .inl ⟨alone, rfl⟩⟩

lemma interruptEnding_live (h : t.Live spec book js) {attempt}
    (done : interruptEnding t attempt = some t') : t'.Live spec book js := by
  simp only [interruptEnding] at done
  split at done
  · exact h.turnEnd done
  · cases done
    exact h

lemma cancelAgent_followed (hd : d.Sound spec book) (h : t.Live spec book d.journal) {attempt reason}
    (done : cancelAgent d me i t attempt reason = some (d', next)) : Followed spec book d' next := by
  simp only [cancelAgent] at done
  split at done
  · cases done
    exact Kept.followed hd (.inl rfl)
  simp only [bind, bind_eq_some_iff] at done
  obtain ⟨u, interrupted, v, staged, done⟩ := done
  have live := (interruptEnding_live h interrupted).stage staged
  split at done
  · cases done
    exact Kept.followed live.sound.persist (.inl rfl)
  · cases done
    exact fun l => live.ownWrite me none l

lemma finishScript_unsettled {ending reason}
    (done : t.finishScript spec ending reason = some (t', false)) :
    t'.record = { t.record with attempt := none } := by
  simp only [Transition.finishScript] at done
  split at done
  · cases ha : t.record.attempt with
    | none =>
      rw [ha] at done
      cases done
      rw [← ha]
    | some a =>
      simp only [ha, bind, bind_eq_some_iff] at done
      obtain ⟨p, -, u, -, e⟩ := done
      cases e
  · cases done
    exact abandonCheck_record _ _

lemma cancel_followed (hd : d.Sound spec book) {reason}
    (done : cancel spec d me i reason = some (d', next)) :
    Followed spec book d' next := by
  simp only [cancel] at done
  split at done
  · cases done
    exact Kept.followed hd (.inl rfl)
  obtain ⟨u, interrupted, done⟩ := bind_eq_some_iff.mp done
  obtain ⟨sound, alone, -⟩ := interruptHeld_sound (.start hd i.now) interrupted
  have closed := sound.waited (closeWait_waited u)
  have alone : u.closeWait.record.held = none := u.closeWait_held.trans alone
  split at done
  · next attempt hattempt =>
    rw [filter_eq_some_iff] at hattempt
    refine cancelAgent_followed hd ⟨closed, fun a ha => ?_⟩ done
    cases hattempt.1.symm.trans ha
    exact (closed.live attempt ha).kind.mp (of_decide_eq_true hattempt.2)
  rename_i other
  have check : ∀ a, u.closeWait.record.attempt = some a → ¬book.agent a.seq := by
    intro a ha owner
    rw [ha, filter_some, (closed.live a ha).kind.mpr owner] at other
    cases other
  obtain ⟨⟨v, settled⟩, finished, e⟩ := bind_eq_some_iff.mp done
  cases e
  have fresh : ∀ a, u.closeWait.record.attempt = some a →
      a.seq ∉ attemptSeqs (d.journal ++ u.closeWait.entries) := fun a ha hs =>
    check a ha ((closed.live a ha).settled hs).2
  have cleared : (u.closeWait.edit fun r => { r with restart := none }).Sound spec book d.journal :=
    Workflow.Sound.setRestart closed alone fresh none nofun
  have script := cleared.finishScript check finished
  refine Kept.followed (Transition.Sound.persist ?_) (.inl rfl)
  cases settled with
  | true => exact script
  | false =>
    have left := finishScript_unsettled finished
    exact script.cancelRun (congrArg RunRecord.attempt left)
      ((congrArg RunRecord.held left).trans alone) reason

lemma revived_spec {r step b} (h : revived r step me = some b) :
    ∃ p, r.prevAttempt = some p ∧ p.runId.isSome = true ∧ b.seq = p.seq ∧ b.node = r.node
      ∧ b.kind = .agent ∧ b.ending = none ∧ r.attempt = none := by
  simp only [revived, bind, bind_eq_some_iff] at h
  obtain ⟨p, hp, runId, hr, handle, -, h⟩ := h
  split at h
  · next parked =>
    cases h
    exact ⟨p, hp, hr ▸ rfl, rfl, parked.2.2, rfl, rfl, isNone_iff_eq_none.mp parked.1⟩
  · cases h

lemma restart_live (h : t.Sound spec book js) {step}
    (hstep : spec.steps[(t.record.sessionAttempt.map LiveAttempt.node).getD t.record.node]? = some step)
    (kind : step.kind = some .agent) (held : t.record.held = none) :
    t.Live spec book js ∧ attemptKind spec t.record.node = .agent := by
  have agent : attemptKind spec ((t.record.sessionAttempt.map LiveAttempt.node).getD t.record.node)
      = .agent := by simp only [attemptKind, hstep, kind, if_pos]
  have node : (t.record.sessionAttempt.map LiveAttempt.node).getD t.record.node = t.record.node := by
    simp only [RunRecord.sessionAttempt, held, map_none, Option.none_or]
    cases ha : t.record.attempt with
    | none => rfl
    | some a =>
      rw [filter_some]
      split
      · exact (h.live a ha).here held
      · rfl
  rw [node] at agent
  refine ⟨⟨h, fun a ha => (h.live a ha).kind.mp ?_⟩, agent⟩
  rw [(h.live a ha).node, (h.live a ha).here held, agent]

/-- The request of a restart keeps the books: it names the attempt it takes back as settled. -/
lemma Transition.Live.requestRestart (h : t.Live spec book js) (held : t.record.held = none)
    (agent : attemptKind spec t.record.node = .agent) (none : t.record.restart = none) (step : Step)
    (me : Host) (resume : Option (Nat × AgentSessionId)) :
    (t.requestRestart step me resume).Live spec book js
      ∧ (t.requestRestart step me resume).record.held = Option.none := by
  have fresh : ∀ a, t.record.attempt = some a → a.seq ∉ attemptSeqs (js ++ t.entries) := by
    intro a ha hs
    have settled := ((h.sound.live a ha).settled hs).1
    rw [RunRecord.settled, none] at settled
    cases settled
  have asked :=
    Workflow.Sound.setRestart h.sound held fresh (some ⟨resume.map Prod.snd, Option.none⟩)
    fun _ e => by cases e
  simp only [Transition.requestRestart]
  split
  · next b hb =>
    split at hb
    · obtain ⟨p, hp, run, seq, node, kind, ending, -⟩ := revived_spec hb
      refine ⟨⟨?_, fun a ha => ?_⟩, held⟩
      · exact Workflow.Sound.revive asked held hp run seq node kind agent ending rfl
      · cases ha
        exact seq ▸ (asked.previous p hp).2 run
    · cases hb
  · exact ⟨⟨asked, h.owner⟩, held⟩

lemma restart_followed (hd : d.Sound spec book) {resume}
    (done : restart spec d me i resume = some (d', next)) : Followed spec book d' next := by
  simp only [restart, bind, bind_eq_some_iff] at done
  obtain ⟨step, hstep, done⟩ := done
  split at done
  · cases done
  rename_i accepted
  simp only [not_or, not_not, not_isSome_iff_eq_none] at accepted
  obtain ⟨-, -, kind, -, noRestart⟩ := accepted
  simp only [bind_eq_some_iff] at done
  obtain ⟨u, interrupted, done⟩ := done
  have start := Transition.Sound.start hd i.now
  obtain ⟨-, alone, restart, cases⟩ := interruptHeld_sound start interrupted
  have found : u.Live spec book d.journal ∧ attemptKind spec u.record.node = .agent := by
    rcases cases with ⟨held, e⟩ | found
    · exact e ▸ restart_live start hstep kind held
    · exact found
  obtain ⟨live, held⟩ :=
    found.1.requestRestart alone found.2 (restart.trans noRestart) step me resume
  split at done
  · obtain ⟨v, staged, done⟩ := bind_eq_some_iff.mp done
    have staged := live.stage staged
    split at done
    · cases done
      exact Kept.followed staged.sound.persist (.inl rfl)
    · cases done
      exact fun l => staged.ownWrite me none l
  · next attempt =>
    cases done
    exact Kept.followed (live.sound.restartStep attempt held _ _).persist (.inl rfl)

lemma grants_books (extend : List Grant) (r : RunRecord) :
    (extend.foldl grant r).books = r.books := by
  induction extend generalizing r with
  | nil => rfl
  | cons g extend ih =>
    rw [foldl_cons, ih]
    cases g <;> rfl

lemma Transition.Sound.unpark (h : t.Sound spec book js) (attempt : t.record.attempt = none)
    (held : t.record.held = none) (at_ : Option String) : (t.unpark at_).Sound spec book js := by
  -- With the attempt gone only the books of a reset and a closed wait matter.
  have parked : ∀ u : Transition, u.Sound spec book js → u.record.attempt = none →
      u.record.held = none → ∀ f : RunRecord → RunRecord,
      (∀ r, (f r).nextSeq = r.nextSeq ∧ (f r).restart = r.restart ∧ (f r).prevAttempt =
        r.prevAttempt ∧ (f r).attempt = r.attempt ∧ (f r).held = r.held) →
      (u.closeWait.edit f).Sound spec book js := by
    intro u hu attempt held f same
    obtain ⟨nextSeq, restart, previous, attempt', held'⟩ := same u.closeWait.record
    exact Workflow.Sound.bare (hu.waited (closeWait_waited u)) (.refl _) nextSeq (.inl restart) previous
      (attempt'.trans (u.closeWait_attempt.trans attempt)) (held'.trans (u.closeWait_held.trans held))
  simp only [Transition.unpark]
  split
  · refine parked (t.resetVisits t.record.node "cap") ?_ attempt held _ ?_
    · exact h.same (.snoc rfl rfl) rfl
    · exact fun _ => ⟨rfl, rfl, rfl, rfl, rfl⟩
  · exact parked _ h attempt held _ fun _ => ⟨rfl, rfl, rfl, rfl, rfl⟩

lemma resume_sound (hd : d.Sound spec book) {at_ extend}
    (done : resume spec d i at_ extend = some d') : d'.Sound spec book := by
  simp only [resume] at done
  split at done
  · cases done
  have granted : Transition.Sound spec book d.journal
      (Transition.edit { record := d.record, now := i.now } fun r => extend.foldl grant r) :=
    (Transition.Sound.start hd i.now).same (.refl _) (grants_books extend d.record)
  cases done
  refine Transition.Sound.persist (Sound.row ?_ rfl rfl)
  split
  · next parked =>
    obtain ⟨attempt, held⟩ := granted.idle (by rw [parked]; exact nofun)
    exact granted.unpark attempt held at_
  · exact granted

lemma wake_sound (hd : d.Sound spec book) {signal subscribed} :
    (wake spec d i signal subscribed).Sound spec book := by
  simp only [wake]
  split
  · have woken := Workflow.Sound.mapAttempts (Transition.Sound.start hd i.now)
      (f := fun a => { a with woken := true }) fun _ => ⟨rfl, rfl, rfl, rfl, rfl⟩
    refine Transition.Sound.persist (Sound.row ?_ rfl rfl)
    exact Workflow.Sound.keep woken (.refl _) rfl
  · exact hd

lemma reassignTask_sound (hd : d.Sound spec book) {task} : (reassignTask d task).Sound spec book :=
  hd.keep (.refl _) rfl

end Commands

end Rimz.Workflow
