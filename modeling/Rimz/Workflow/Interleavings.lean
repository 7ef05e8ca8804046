import Rimz.Workflow.Once

/-!
# Every interleaving keeps the books

The sections of `Once`, put together over the processes of one run: an act of any process keeps the
invariant of the disk, what every process holds, and the order of the numbers handed out. A run of
the system keeps them by induction on its acts.
-/

namespace Rimz.Workflow
open Std

/-- The invariant of a run and its processes. -/
structure World.Sound (spec : WorkflowSpec) (book : Book) (w : World) : Prop where
  disk : w.disk.Sound spec book
  procs : ∀ p, (w.procs p).Sound book
  increasing : w.handed.Pairwise (· < ·)
  handed : ∀ s ∈ w.handed, s < book.next

variable {spec : WorkflowSpec} {book : Book} {w : World} {p : Host}

namespace World

section
variable (h : w.Sound spec book)
include h

lemma Sound.goto {proc} (sound : proc.Sound book) : (w.goto p proc).Sound spec book := by
  refine ⟨h.disk, fun q => ?_, h.increasing, h.handed⟩
  simp only [World.goto, update_apply]
  split
  · exact sound
  · exact h.procs q

lemma Sound.section_ {disk proc} (kept : Kept spec book disk proc) :
    ({ w with disk }.goto p proc).Sound spec book :=
  Sound.goto (w := { w with disk }) ⟨kept.disk, h.procs, h.increasing, h.handed⟩ kept.proc

lemma Sound.land {l result}
    (followed : ∀ disk next, result = some (disk, next) → Followed spec book disk next) :
    (w.land p l result).Sound spec book := by
  cases result with
  | none => exact h.goto trivial
  | some landed => exact h.section_ (followed landed.1 landed.2 rfl l)

lemma Sound.hand {isAgent disk proc} (kept : Kept spec (book.hand isAgent) disk proc) :
    ({ w with disk, handed := w.handed ++ [book.next] }.goto p proc).Sound spec
      (book.hand isAgent) := by
  refine Sound.goto (w := { w with disk, handed := w.handed ++ [book.next] })
    ⟨kept.disk, fun q => (h.procs q).hand isAgent, ?_, fun s hs => ?_⟩ kept.proc
  · rw [pairwise_append]
    refine ⟨h.increasing, pairwise_singleton _ _, fun s hs n hn => ?_⟩
    rw [mem_singleton.mp hn]
    exact h.handed s hs
  · rw [mem_append, mem_singleton] at hs
    rcases hs with hs | hs
    · exact Nat.lt_succ_of_lt (h.handed s hs)
    · exact hs ▸ Nat.lt_succ_self _

lemma Sound.prepare (admitted : spec.Admitted) {i l} :
    ∃ book', World.Sound spec book' (match Workflow.prepare spec w.disk p i l with
      | some (disk, l, decision) =>
        { w with disk, handed := w.handed ++ decision.handed }.goto p (decision.proc spec l)
      | none => w.goto p .idle) := by
  cases hp : Workflow.prepare spec w.disk p i l with
  | none => exact ⟨book, h.goto trivial⟩
  | some prepared =>
    obtain ⟨disk, l', decision⟩ := prepared
    cases prepare_prepared admitted h.disk hp with
    | kept kept handed =>
      refine ⟨book, ?_⟩
      simp only [handed, append_nil]
      exact h.section_ kept
    | handed isAgent kept handed =>
      refine ⟨book.hand isAgent, ?_⟩
      simp only [handed]
      exact h.hand kept

/-- One act of one process. -/
lemma Sound.exec (admitted : spec.Admitted) (p : Host) (act : Act) :
    ∃ book', (w.exec spec p act).Sound spec book' := by
  have held := h.procs p
  simp only [World.exec]
  split
  · exact ⟨book, h.goto trivial⟩
  · exact h.prepare admitted
  · next record l hp =>
    rw [hp] at held
    refine ⟨book, ?_⟩
    split
    · next disk seen next done => exact h.section_ (evaluated_followed h.disk held done _)
    · exact h.goto trivial
  · next record l hp =>
    rw [hp] at held
    exact ⟨book, h.land fun _ _ done => commandEnded_followed h.disk held done⟩
  · next record prompt l hp =>
    rw [hp] at held
    exact ⟨book, h.land fun _ _ done => launched_followed admitted h.disk held done⟩
  · next record l hp =>
    rw [hp] at held
    exact ⟨book, h.land fun _ _ done => pushed_followed h.disk held done⟩
  · next record reason l hp =>
    rw [hp] at held
    exact ⟨book, h.land fun _ _ done => finished_followed h.disk held done⟩
  · exact ⟨book, h.goto trivial⟩
  · exact ⟨book, h.goto trivial⟩
  · exact ⟨book, h.land fun _ _ done => cancel_followed h.disk done⟩
  · exact ⟨book, h.land fun _ _ done => restart_followed h.disk done⟩
  · refine ⟨book, ?_⟩
    split
    · next disk done => exact ⟨resume_sound h.disk done, h.procs, h.increasing, h.handed⟩
    · exact h
  · exact ⟨book, wake_sound h.disk, h.procs, h.increasing, h.handed⟩
  · exact ⟨book, reassignTask_sound h.disk, h.procs, h.increasing, h.handed⟩
  · exact ⟨book, h.goto trivial⟩
  · exact ⟨book, h⟩

lemma Sound.run (admitted : spec.Admitted) (acts : List (Host × Act)) :
    ∃ book', (w.run spec acts).Sound spec book' := by
  induction acts generalizing w book with
  | nil => exact ⟨book, h⟩
  | cons act acts ih =>
    obtain ⟨book', h'⟩ := h.exec admitted act.1 act.2
    exact ih h'

end

lemma create_sound {outside task manual now}
    (created : World.create spec outside task manual now = some w) :
    spec.Admitted ∧ w.Sound spec ⟨w.disk.record.nextSeq, fun _ => False⟩ := by
  simp only [World.create] at created
  split at created
  · next valid =>
    cases created
    refine ⟨.of_validate valid, ⟨⟨rfl, .nil, .nil, ?_, ?_, ?_, ?_, ?_, ?_, ?_⟩, fun _ => trivial, .nil, ?_⟩⟩
    · exact fun _ hs => by cases hs
    · exact fun _ hs => by cases hs
    · exact fun _ ha => by cases ha
    · exact fun _ hs => by cases hs
    · exact fun _ hp => by cases hp
    · exact fun _ hs => by cases hs
    · exact fun ended => absurd rfl ended
    · exact fun _ hs => by cases hs
  · cases created

end World

/-- Whether an act delivers a result computed outside the lock. -/
def Act.delivers : Act → Bool
  | .evaluated .. | .commandEnded .. | .launched .. | .pushed .. | .finished .. => true
  | _ => false

/-- A section that finds its attempt gone writes nothing. -/
lemma stale_result {a} (working : w.working p = some a) {act} (delivers : act.delivers = true)
    (stale : ¬(w.disk.record.state = .active ∧ ∃ b, w.disk.record.attempt = some b ∧ b.seq = a.seq)) :
    (w.exec spec p act).disk = w.disk := by
  have gone : ∀ now, Transition.current { record := w.disk.record, now } a.seq = false := by
    intro now
    rw [← not_eq_true]
    exact fun cur => stale (Transition.current_attempt cur)
  simp only [World.exec]
  split
  · rfl
  · cases delivers
  · next record l hp =>
    rw [World.working, hp] at working
    simp [evaluated, show record.attempt = some a from working, gone, World.goto]
  · next record l hp =>
    rw [World.working, hp] at working
    simp [commandEnded, show record.attempt = some a from working, gone, World.land, World.goto]
  · next record prompt l hp =>
    rw [World.working, hp] at working
    simp [launched, show record.attempt = some a from working, gone, World.land, World.goto]
  · next record l hp =>
    rw [World.working, hp] at working
    cases push : a.push <;>
      simp [pushed, show record.attempt = some a from working, push, gone, World.land, World.goto]
  · next record reason l hp =>
    rw [World.working, hp] at working
    cases detached : detaches spec a <;>
      simp [finished, show record.attempt = some a from working, detached, gone, World.land, World.goto]
  · cases delivers
  · cases delivers
  · cases delivers
  · cases delivers
  · cases delivers
  · cases delivers
  · cases delivers
  all_goals rfl

/-- Each attempt is settled at most once, whatever the processes of its run do: the numbers handed
to new attempts increase, the journal has one row for each settled attempt and each evaluation, and
a result for an attempt that is no longer the live one of an active run changes nothing on disk. -/
theorem attempts_settle_once {outside : List Issue} {task : Option String} {manual : Bool}
    {now : Timestamp} {w : World} (created : World.create spec outside task manual now = some w)
    (acts : List (Host × Act)) :
    (w.run spec acts).handed.Pairwise (· < ·)
      ∧ (attemptSeqs (w.run spec acts).disk.journal).Nodup
      ∧ (evaluationSeqs (w.run spec acts).disk.journal).Nodup
      ∧ ∀ p act a, (w.run spec acts).working p = some a → act.delivers = true →
          ¬((w.run spec acts).disk.record.state = .active
            ∧ ∃ b, (w.run spec acts).disk.record.attempt = some b ∧ b.seq = a.seq) →
          ((w.run spec acts).exec spec p act).disk = (w.run spec acts).disk := by
  obtain ⟨admitted, start⟩ := World.create_sound created
  obtain ⟨book, sound⟩ := start.run admitted acts
  exact ⟨sound.increasing, sound.disk.attempts, sound.disk.evaluations,
    fun _ _ _ working delivers stale => stale_result working delivers stale⟩

/-- A command step that is repeated until its test passes, at most twice. -/
def fixUntilGreen : WorkflowSpec where
  start := "fix"
  steps := (∅ : ExtTreeMap String Step).insert "fix"
    { shell := some "make fix", timeout := some 60, then_ := ["test"], maxVisits := some 2 }
  checks := (∅ : ExtTreeMap String Check).insert "test"
    { shell := some "make test", on := (∅ : ExtTreeMap String Route).insert "pass" ⟨"@done", none⟩
        |>.insert "fail" ⟨"fix", none⟩ }

/-- A second advance takes the first one for dead and cancels the attempt it still works on. -/
def takenOver : List (Host × Act) :=
  [(0, .advance), (1, .advance), (0, .prepare (.atInstant 1)),
    (1, .prepare { Reading.atInstant 2 with hostLive := false })]

/-- The first advance comes back with its result: the attempt has its row, and nothing changes. -/
theorem attempts_settle_once_taken_over : ∃ w a,
    World.create fixUntilGreen [] none false 0 = some w
    ∧ (w.run fixUntilGreen takenOver).working 0 = some a
    ∧ attemptSeqs (w.run fixUntilGreen takenOver).disk.journal = [a.seq]
    ∧ ((w.run fixUntilGreen takenOver).exec fixUntilGreen 0 (.commandEnded (.atInstant 3) .passed)).disk
      = (w.run fixUntilGreen takenOver).disk := by
  refine ⟨_, _, rfl, rfl, rfl, ?_⟩
  have once := @attempts_settle_once fixUntilGreen [] none false 0 _ rfl takenOver
  refine once.2.2.2 0 _ _ rfl rfl fun live => ?_
  obtain ⟨-, b, hb, -⟩ := live
  cases hb

/-- Whatever its processes do, a run that is not active has no attempt and no held session; a held
session is an open one of an agent step, held where the run stands at no step and no other agent
works; an attempt stands at the run's node unless a session is held. -/
theorem slots_consistent {outside task manual now} {w : World}
    (created : World.create spec outside task manual now = some w) (acts : List (Host × Act)) :
    let r := (w.run spec acts).disk.record
    (r.state ≠ .active → r.attempt = none ∧ r.held = none)
      ∧ (∀ h, r.held = some h → attemptKind spec h.attempt.node = .agent ∧ h.attempt.kind = .agent
        ∧ h.attempt.ending = none ∧ spec.steps.contains r.node = false
        ∧ ∀ a, r.attempt = some a → a.kind ≠ .agent)
      ∧ ∀ a, r.attempt = some a → a.kind = attemptKind spec a.node ∧ a.seq < r.nextSeq
        ∧ (r.held = none → a.node = r.node)
        ∧ (a.ending.isSome = true → ∃ p, r.prevAttempt = some p ∧ p.seq = a.seq) := by
  obtain ⟨admitted, start⟩ := World.create_sound created
  obtain ⟨book, sound⟩ := start.run admitted acts
  refine ⟨sound.disk.idle, fun h hh => ?_, fun a ha => ?_⟩
  · have held := sound.disk.held h hh
    exact ⟨held.step, held.kind, held.open_, held.node,
      fun a ha agent => held.alone a ha ((sound.disk.live a ha).kind.mp agent)⟩
  · have live := sound.disk.live a ha
    exact ⟨live.node, sound.disk.nextSeq ▸ live.handed, live.here, live.staged⟩

/-- An agent that reviews until the tests pass, in at most three turns. -/
def reviewUntilGreen : WorkflowSpec where
  start := "review"
  steps := (∅ : ExtTreeMap String Step).insert "review"
    { agent := some "reviewer", promptFile := some "review.md", then_ := ["test"], maxVisits := some 3 }
  checks := (∅ : ExtTreeMap String Check).insert "test"
    { shell := some "make test", on := (∅ : ExtTreeMap String Route).insert "pass" ⟨"@done", none⟩
        |>.insert "fail" ⟨"review", none⟩ }

/-- The first turn of the reviewer. -/
def firstTurn : TurnEnd := ⟨"reviewer", 2, 5⟩

/-- The reviewer at rest after that turn. -/
def Reading.rested (now : Timestamp) (message : MessageId) : Reading :=
  { Reading.atInstant now with
    observed := { status := .running, turn := some ⟨firstTurn, true⟩ }, message }

/-- The reviewer's first turn is judged: its session is held while the test runs. -/
def underTest : List (Host × Act) :=
  [(0, .advance), (0, .prepare (.atInstant 1)),
    (0, .launched (.rested 6 0) (.ok ⟨"run", "reviewer"⟩)),
    (0, .prepare (.rested 7 0))]

/-- The held session is the reviewer's, and the attempt beside it the test. -/
theorem slots_consistent_held : ∃ w h a, World.create reviewUntilGreen [] none false 0 = some w
    ∧ (w.run reviewUntilGreen underTest).disk.record.held = some h
    ∧ (w.run reviewUntilGreen underTest).disk.record.attempt = some a
    ∧ h.attempt.node = "review" ∧ h.attempt.kind = .agent ∧ a.node = "test" ∧ a.kind ≠ .agent
    ∧ reviewUntilGreen.steps.contains (w.run reviewUntilGreen underTest).disk.record.node =
    false := by
  have tested : (World.create reviewUntilGreen [] none false 0).any fun w =>
      ((w.run reviewUntilGreen underTest).disk.record.held.any (·.attempt.node = "review"))
        && (w.run reviewUntilGreen underTest).disk.record.attempt.any (·.node = "test") := by
    decide +kernel
  obtain ⟨w, created, tested⟩ := (any_eq_true _ _).mp tested
  obtain ⟨held, live⟩ := (and_eq_true _ _).mp tested
  obtain ⟨h, hh, review⟩ := (any_eq_true _ _).mp held
  obtain ⟨a, ha, test⟩ := (any_eq_true _ _).mp live
  obtain ⟨-, kind, -, node, alone⟩ := (slots_consistent created underTest).2.1 h hh
  exact ⟨w, h, a, created, hh, ha, of_decide_eq_true review, kind, of_decide_eq_true test,
    alone a ha, node⟩

end Rimz.Workflow
