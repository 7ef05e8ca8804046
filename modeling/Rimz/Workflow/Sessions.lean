import Rimz.Workflow.Verdicts
import Rimz.Lib.Run

/-!
# Until sessions over whole runs

Processes advance a run while the turn end that its leader shows changes. A turn end that was
replaced is never shown again, and it is the turn end of one attempt. Over every such run a verdict
acts on the turn it judged: the tally of push-backs below is kept by everything a section can do to
a session.
-/

namespace Rimz.Workflow
open Std Lib

def pushBacks (js : List Acted) : List Acted := js.filter fun row => row.action = .pushed

lemma pushBacks_append {js rows} : pushBacks (js ++ rows) = pushBacks js ++ pushBacks rows :=
  filter_append ..

/-- A turn end that was pushed back and is still shown is not judged again: its session is not held,
and its attempt has it as the last turn judged or is ending. -/
structure Guarded (r : RunRecord) (z : Nat × TurnEnd) : Prop where
  held : ∀ h, r.held = some h → h.attempt.seq ≠ z.1
  live : r.held = none → ∀ a, r.attempt = some a → a.seq = z.1 →
    a.judged = some z.2 ∨ a.ending.isSome = true

/-- The row of a push-back: its turn end was shown, under the attempt that journaled it. -/
structure Tallied (r : RunRecord) (shown : List (Nat × TurnEnd)) (row : Acted) (n : Nat) : Prop where
  number : row.seq = some n
  seen : (n, row.turn) ∈ shown
  handed : n < r.nextSeq
  guarded : shown.getLast? = some (n, row.turn) → Guarded r (n, row.turn)

/-- The tally of a run: its record, its actions and the turn ends shown so far. -/
structure Tally (r : RunRecord) (js : List Acted) (shown : List (Nat × TurnEnd)) : Prop where
  own : ∀ y ∈ shown, ∀ z ∈ shown, y.2 = z.2 → y = z
  rows : ∀ row ∈ pushBacks js, ∃ n, Tallied r shown row n
  once : ((pushBacks js).map Acted.turn).Nodup
  pending : r.held = none → ∀ a push, r.attempt = some a → a.push = some push → push.queued =
    false → ∃ turn, a.judged = some turn ∧ ⟨.pushed, turn, some a.seq, some push.message⟩ ∈ js
  queued : ∀ h push, r.held = some h → h.attempt.push = some push → push.queued = true

section Tally
variable {rest : Option TurnEnd} {y : Option (Nat × TurnEnd)} {z : Nat × TurnEnd}
  {message : MessageId} {r r' : RunRecord} {js rows : List Acted} {shown : List (Nat × TurnEnd)}

lemma Guarded.calm (h : Guarded r z) (calm : Calm r r') : Guarded r' z where
  held k hk := by
    obtain ⟨k', hk', mark⟩ := calm.held k hk
    rw [show k.attempt.seq = k'.attempt.seq from (Mark.mk.inj mark).1]
    exact h.held k' hk'
  live hn a ha seq := by
    obtain ⟨hn', b, hb, mark, ending⟩ := calm.live hn ha
    obtain ⟨seq', judged, -⟩ := Mark.mk.inj mark
    rcases h.live hn' b hb (seq'.symm.trans seq) with same | ended
    · exact .inl (judged.trans same)
    · exact .inr (ending ended)

section
variable (h : Turned rest y message r rows r')
include h

/-- While a turn end that was pushed back is shown, no section judges it again. -/
lemma Turned.guarded (old : Guarded r z) (handed : z.1 < r.nextSeq)
    (shows : ∀ x, y = some x → x = z) : Guarded r' z := by
  cases h with
  | calm calm | kept _ _ _ _ _ calm => exact old.calm calm
  | began held attempt open_ _ _ shown new held' mark _ =>
    refine ⟨fun k hk seq => ?_, fun hn => by cases held'.symm.trans hn⟩
    cases held'.symm.trans hk
    have seq' := (Mark.mk.inj mark).1.symm.trans seq
    rcases old.live held _ attempt seq' with judged | ended
    · exact new (judged.trans (congrArg (some ·.2) (shows _ shown).symm))
    · rw [open_] at ended
      cases ended
  | restored held held' attempt' mark _ _ | pushed held _ _ _ held' attempt' mark _ _ =>
    refine ⟨fun k hk => (by cases held'.symm.trans hk), fun _ a ha seq => ?_⟩
    cases attempt'.symm.trans ha
    exact absurd ((Mark.mk.inj mark).1.symm.trans seq) (old.held _ held)
  | dropped held' attempt' _ =>
    exact ⟨fun k hk => (by cases held'.symm.trans hk), fun _ a ha => (by cases attempt'.symm.trans ha)⟩
  | published _ held' attempt' new _ _ _ =>
    refine ⟨fun k hk => (by cases held'.symm.trans hk), fun _ a ha seq => ?_⟩
    cases attempt'.symm.trans ha
    exact absurd (seq ▸ new) (Nat.not_le.mpr handed)
  | revived held' attempt' ending _ _ =>
    refine ⟨fun k hk => (by cases held'.symm.trans hk), fun _ a ha _ => ?_⟩
    cases attempt'.symm.trans ha
    obtain ⟨e, ending, -⟩ := ending
    exact .inr (ending ▸ rfl)
  | queued held attempt held' attempt' _ mark ending _ =>
    refine ⟨fun k hk => (by cases held'.symm.trans hk), fun _ a ha seq => ?_⟩
    cases attempt'.symm.trans ha
    obtain ⟨seq', judged, -⟩ := Mark.mk.inj mark
    rcases old.live held _ attempt (seq'.symm.trans seq) with same | ended
    · exact .inl (judged.trans same)
    · exact .inr (ending ended)

lemma Turned.next : r.nextSeq ≤ r'.nextSeq := by
  cases h with
  | calm calm | kept _ _ _ _ _ calm => exact calm.next
  | began _ _ _ _ _ _ _ _ _ next | restored _ _ _ _ next _ | pushed _ _ _ _ _ _ _ next _
  | dropped _ _ next | published _ _ _ _ _ _ next | revived _ _ _ _ next
  | queued _ _ _ _ _ _ _ next => exact next

/-- A push-back that is not queued has its row. -/
lemma Turned.pending (tally : Tally r js shown) (hn : r'.held = none) {a push}
    (ha : r'.attempt = some a) (hp : a.push = some push) (unqueued : push.queued = false) :
    ∃ turn, a.judged = some turn ∧ ⟨.pushed, turn, some a.seq, some push.message⟩ ∈ js ++ rows := by
  have calm : Calm r r' → ∃ turn, a.judged = some turn
      ∧ ⟨.pushed, turn, some a.seq, some push.message⟩ ∈ js ++ rows := by
    intro calm
    obtain ⟨hn', b, hb, mark, -⟩ := calm.live hn ha
    obtain ⟨seq, judged, pushes⟩ := Mark.mk.inj mark
    obtain ⟨turn, same, row⟩ := tally.pending hn' b push hb (pushes.symm.trans hp) unqueued
    rw [seq, judged]
    exact ⟨turn, same, mem_append_left _ row⟩
  cases h with
  | calm c | kept _ _ _ _ _ c => exact calm c
  | began _ _ _ _ _ _ _ held' _ _ => cases held'.symm.trans hn
  | restored held _ attempt' mark _ _ =>
    cases attempt'.symm.trans ha
    have queued := tally.queued _ push held ((Mark.mk.inj mark).2.2.symm.trans hp)
    cases queued.symm.trans unqueued
  | pushed held judged _ _ _ attempt' mark _ _ =>
    cases attempt'.symm.trans ha
    obtain ⟨seq, judged', pushes⟩ := Mark.mk.inj mark
    cases pushes.symm.trans hp
    rw [seq]
    exact ⟨_, judged'.trans judged, mem_append_right _ (mem_singleton.mpr rfl)⟩
  | dropped _ attempt' _ => cases attempt'.symm.trans ha
  | published _ _ attempt' _ _ none _ | revived _ attempt' _ none _ =>
    cases attempt'.symm.trans ha
    cases none.symm.trans hp
  | queued _ _ _ attempt' _ mark _ _ =>
    cases attempt'.symm.trans ha
    cases (Mark.mk.inj mark).2.2.symm.trans hp
    cases unqueued

/-- The push-back of a held session is queued. -/
lemma Turned.queues (tally : Tally r js shown) {k push} (hk : r'.held = some k)
    (hp : k.attempt.push = some push) : push.queued = true := by
  have calm : Calm r r' → push.queued = true := by
    intro calm
    obtain ⟨k', hk', mark⟩ := calm.held k hk
    exact tally.queued k' push hk' ((Mark.mk.inj mark).2.2.symm.trans hp)
  cases h with
  | calm c | kept _ _ _ _ _ c => exact calm c
  | began _ _ _ queued _ _ _ held' mark _ =>
    cases held'.symm.trans hk
    exact queued push ((Mark.mk.inj mark).2.2.symm.trans hp)
  | restored _ held' _ _ _ _ | pushed _ _ _ _ held' _ _ _ _
  | dropped held' _ _ | published _ held' _ _ _ _ _ | revived held' _ _ _ _
  | queued _ _ held' _ _ _ _ _ => cases held'.symm.trans hk

end

/-- A turn end that was replaced is never shown again, and it is shown of one attempt. -/
def Fresh (shown : List (Nat × TurnEnd)) (y : Option (Nat × TurnEnd)) : Prop :=
  ∀ x, y = some x → x.2 ∈ shown.map Prod.snd → shown.getLast? = some x

lemma Fresh.last (fresh : Fresh shown y) (seen : z ∈ shown)
    (last : (shown ++ y.toList).getLast? = some z) :
    shown.getLast? = some z ∧ ∀ x, y = some x → x = z := by
  cases y with
  | none =>
    rw [toList_none, append_nil] at last
    exact ⟨last, nofun⟩
  | some x =>
    rw [toList_some, List.getLast?_append, List.getLast?_singleton, Option.some_or] at last
    cases last
    refine ⟨fresh z rfl (mem_map_of_mem seen), fun x hx => ?_⟩
    cases hx
    rfl

/-- Each section keeps the tally. -/
lemma Tally.turn (h : Tally r js shown) (turned : Turned rest y message r rows r')
    (fresh : Fresh shown y) (handed : ∀ k, r.held = some k → k.attempt.seq < r.nextSeq) :
    Tally r' (js ++ rows) (shown ++ y.toList) where
  own x hx z hz e := by
    -- The turn end of this section is new, or the last one shown.
    have old : ∀ x, y = some x → ∀ z ∈ shown, x.2 = z.2 → x = z := fun x hx z hz e =>
      h.own x (mem_of_getLast? (fresh x hx (e ▸ mem_map_of_mem hz))) z hz e
    rw [mem_append, Option.mem_toList] at hx hz
    rcases hx with hx | hx <;> rcases hz with hz | hz
    · exact h.own x hx z hz e
    · exact (old z hz x hx e.symm).symm
    · exact old x hx z hz e
    · exact Option.some.inj (hx.symm.trans hz)
  rows row hrow := by
    rw [pushBacks_append, mem_append] at hrow
    rcases hrow with hrow | hrow
    · obtain ⟨n, tallied⟩ := h.rows row hrow
      refine ⟨n, tallied.number, mem_append_left _ tallied.seen,
        Nat.lt_of_lt_of_le tallied.handed turned.next, fun last => ?_⟩
      obtain ⟨last', shows⟩ := fresh.last tallied.seen last
      exact turned.guarded (tallied.guarded last') tallied.handed shows
    -- The row of this section.
    cases turned with
    | kept _ _ _ action _ _ =>
      rw [pushBacks, mem_filter, mem_singleton] at hrow
      obtain ⟨rfl, pushed⟩ := hrow
      rw [action] at pushed
      cases pushed
    | pushed held judged _ shows held' attempt' mark next _ =>
      rw [pushBacks, mem_filter, mem_singleton] at hrow
      obtain ⟨rfl, -⟩ := hrow
      refine ⟨_, rfl, mem_append_right _ (Option.mem_toList.mpr shows),
        Nat.lt_of_lt_of_le (handed _ held) next, fun _ => ⟨fun k hk => ?_, fun _ a ha _ => .inl ?_⟩⟩
      · cases held'.symm.trans hk
      · cases attempt'.symm.trans ha
        exact (Mark.mk.inj mark).2.1.trans judged
    | calm | began | restored | dropped | published | revived | queued => cases hrow
  once := by
    rw [pushBacks_append, map_append]
    cases turned with
    | kept _ _ _ action _ _ =>
      have none : pushBacks [_] = [] := List.filter_cons_of_neg (by rw [action]; decide)
      rw [none, map_nil, append_nil]
      exact h.once
    | pushed held _ _ shows _ _ _ _ _ =>
      refine nodup_append.mpr ⟨h.once, nodup_singleton _, fun turn hturn turn' hturn' => ?_⟩
      rw [show turn' = _ from mem_singleton.mp hturn']
      rintro rfl
      obtain ⟨row, hrow, e⟩ := mem_map.mp hturn
      obtain ⟨n, tallied⟩ := h.rows row hrow
      -- The turn end was pushed back before: it is the last one shown, and its session is not held.
      have last := fresh _ shows (mem_map.mpr ⟨_, tallied.seen, e⟩)
      have same := h.own _ (mem_of_getLast? last) _ tallied.seen e.symm
      rw [same] at last
      exact (tallied.guarded last).held _ held (congrArg Prod.fst same)
    | calm | began | restored | dropped | published | revived | queued =>
      rw [show pushBacks [] = [] from rfl, map_nil, append_nil]
      exact h.once
  pending hn a push ha hp unqueued := turned.pending h hn ha hp unqueued
  queued k push hk hp := turned.queues h hk hp

end Tally

/-! ### The sections of the processes -/

/-- What an act reads outside the record; some read nothing. -/
def Act.reading : Act → Reading
  | .prepare i | .evaluated i _ | .commandEnded i _ | .launched i _ | .pushed i _ | .finished i _
  | .cancel i _ | .restart i _ | .resume i _ _ | .wake i _ _ => i
  | .advance | .evicted _ | .answered _ | .reassign _ | .die => .atInstant 0

namespace World
variable {spec : WorkflowSpec} {book : Book} {w : World} {p : Host}

/-- The turn end that an act observes, with the attempt whose leader showed it. -/
def shows (w : World) (p : Host) (act : Act) : Option (Nat × TurnEnd) :=
  match act, w.procs p with
  | .prepare i, .ready _ => w.disk.record.observes i
  | .launched i (.ok _), .launching record (.ok _) _ => w.disk.record.observesLaunched record i
  | _, _ => none

lemma land_disk {l result} {P : Disk → Prop} (idle : P w.disk)
    (landed : ∀ disk next, result = some (disk, next) → P disk) : P (w.land p l result).disk := by
  cases result with
  | none => exact idle
  | some landing => exact landed landing.1 landing.2 rfl

/-- Every act is one of the sections, or leaves the disk alone. -/
lemma exec_judged (h : w.Sound spec book) (p : Host) (act : Act) :
    Judged act.reading (w.shows p act) w.disk.record w.disk.journal (w.exec spec p act).disk := by
  have owner := h.procs p
  have idle : ∀ {i shown}, Judged i shown w.disk.record w.disk.journal w.disk := .idle w.disk
  simp only [World.exec]
  split
  · exact idle
  · next i l hp =>
    rw [show w.shows p (.prepare i) = w.disk.record.observes i by simp only [World.shows, hp]]
    split
    · next disk l' decision done => exact (prepare_judged h.disk done).judged
    · exact idle
  · split
    · next disk seen next done => exact evaluated_judged done
    · exact idle
  · exact land_disk idle fun _ _ done => commandEnded_judged done
  · next i result record prompt l hp =>
    rw [hp] at owner
    refine land_disk idle fun _ _ done => launched_judged h.disk (fun a ha => (owner a ha).1.2) ?_ done
    intro run e
    cases prompt with
    | ok u =>
      cases e
      simp only [World.shows, hp]
      rfl
    | error reason => cases e
  · next i queued record l hp =>
    rw [hp] at owner
    exact land_disk idle fun _ _ done => (pushed_judged h.disk (fun a ha => (owner a ha).2) done).1
  · exact land_disk idle fun _ _ done => finished_judged done
  · exact idle
  · exact idle
  · exact land_disk idle fun _ _ done => cancel_judged done
  · exact land_disk idle fun _ _ done => restart_judged done
  · split
    · next disk done => exact resume_judged done
    · exact idle
  · exact wake_judged
  · exact reassignTask_judged
  all_goals exact idle

variable {q : Host} {record : RunRecord} {l : Local}

lemma goto_pushing {proc} (hq : (w.goto p proc).procs q = .pushing record l) :
    w.procs q = .pushing record l ∨ proc = .pushing record l := by
  simp only [World.goto, update_apply] at hq
  split at hq
  · exact .inr hq
  · exact .inl hq

lemma land_pushing {k result} (hq : (w.land p k result).procs q = .pushing record l) :
    w.procs q = .pushing record l := by
  cases result with
  | none =>
    rcases goto_pushing hq with old | new
    · exact old
    · cases new
  | some landing =>
    rcases goto_pushing hq with old | new
    · exact old
    obtain ⟨disk, next⟩ := landing
    cases next with
    | stop | finish => cases new
    | advance => cases k <;> cases new

/-- A process goes to the host with the push-back of the record on disk. -/
lemma exec_pushing (h : w.Sound spec book) {act}
    (hq : (w.exec spec p act).procs q = .pushing record l) :
    w.procs q = .pushing record l ∨
    Submits w.disk.record w.disk.journal (w.exec spec p act).disk record := by
  have moved : ∀ {proc : Proc}, (∀ record l, proc ≠ .pushing record l) →
      (w.goto p proc).procs q = .pushing record l → w.procs q = .pushing record l := by
    intro proc other hq
    rcases goto_pushing hq with old | new
    · exact old
    · exact absurd new (other record l)
  simp only [World.exec] at hq ⊢
  split at hq
  · exact .inl (moved (fun _ _ => by simp) hq)
  · next i l hp =>
    split at hq
    · next disk l' decision done =>
      rcases goto_pushing hq with old | new
      · exact .inl old
      refine .inr ?_
      have settles := prepare_judged h.disk done
      cases decision with
      | push record' =>
        cases new
        exact settles.submits record rfl
      | evaluate record' =>
        simp only [Decision.proc] at new
        split at new <;> cases new
      | stop | again | launch | end_ | evict | askCapacity => cases new
    · exact .inl (moved (fun _ _ => by simp) hq)
  · split at hq
    · next disk seen next done =>
      rcases goto_pushing hq with old | new
      · exact .inl old
      · cases next <;> cases new
    · exact .inl (moved (fun _ _ => by simp) hq)
  · exact .inl (land_pushing hq)
  · exact .inl (land_pushing hq)
  · exact .inl (land_pushing hq)
  · exact .inl (land_pushing hq)
  · exact .inl (moved (fun _ _ => by simp) hq)
  · exact .inl (moved (fun _ _ => by simp) hq)
  · exact .inl (land_pushing hq)
  · exact .inl (land_pushing hq)
  · split at hq <;> exact .inl hq
  · exact .inl hq
  · exact .inl hq
  · exact .inl (moved (fun _ _ => by simp) hq)
  · exact .inl hq

lemma exec_pushed_visits (h : w.Sound spec book) (hp : w.procs p = .pushing record l) (i : Reading)
    (queued : Bool) :
    (w.exec spec p (.pushed i queued)).disk.record.visits = w.disk.record.visits := by
  have owner := h.procs p
  rw [hp] at owner
  simp only [World.exec, hp]
  refine land_disk (P := fun d => d.record.visits = w.disk.record.visits) rfl fun _ _ done => ?_
  have judged : Judged i none _ _ _ ∧ _ := pushed_judged h.disk (fun a ha => (owner a ha).2) done
  exact judged.2

end World

/-! ### Runs -/

/-- A run of the system, and the turn ends its leaders have shown. -/
structure Session where
  world : World
  shown : List (Nat × TurnEnd) := []

/-- One act of a process. A process may die in the middle of its write, which appends its rows first
and replaces the record last: the rows written by then stay in the file, where no process reads
them. -/
structure Move where
  process : Host
  act : Act
  dies : Bool := false

namespace Session

/-- The disk that an act writes. -/
def writes (spec : WorkflowSpec) (s : Session) (m : Move) : Disk :=
  (s.world.exec spec m.process m.act).disk

/-- The rows that an act appends to the journal. -/
def rows (spec : WorkflowSpec) (s : Session) (m : Move) : List JournalEntry :=
  (s.writes spec m).journal.drop s.world.disk.journal.length

/-- The session after an act. -/
def after (spec : WorkflowSpec) (s : Session) (m : Move) : Session where
  world := if m.dies then s.world.goto m.process .idle else s.world.exec spec m.process m.act
  shown := s.shown ++ (s.world.shows m.process m.act).toList

/-- A step of the session. -/
def Step (spec : WorkflowSpec) (s : Session) (m : Move) (s' : Session) : Prop :=
  Fresh s.shown (s.world.shows m.process m.act) ∧ s' = s.after spec m

variable {spec : WorkflowSpec} {s s' : Session} {m : Move}

/-- The invariant of a session: its books, its tally, and the push-backs on their way to the
host. -/
structure Sound (spec : WorkflowSpec) (s : Session) : Prop where
  books : ∃ book, s.world.Sound spec book
  tally : Tally s.world.disk.record (actions s.world.disk.journal) s.shown
  submitted : ∀ p record l, s.world.procs p = .pushing record l → ∃ a push turn, record.attempt =
    some a ∧ a.push = some push ∧ a.judged = some turn
    ∧ ⟨.pushed, turn, some a.seq, some push.message⟩ ∈ actions s.world.disk.journal

lemma Sound.turned (h : s.Sound spec) (m : Move) :
    (s.writes spec m).journal = s.world.disk.journal ++ s.rows spec m
      ∧ Turned m.act.reading.observed.atRest (s.world.shows m.process m.act) m.act.reading.message
        s.world.disk.record (actions (s.rows spec m)) (s.writes spec m).record := by
  obtain ⟨book, books⟩ := h.books
  obtain ⟨es, journal, turned⟩ := World.exec_judged books m.process m.act
  have rows : s.rows spec m = es := by
    rw [rows, writes, journal, drop_left]
  rw [rows]
  exact ⟨journal, turned⟩

/-- Every act of every process keeps the tally, and so does a death. -/
lemma Sound.step (h : s.Sound spec) (admitted : spec.Admitted) (step : Step spec s m s') :
    s'.Sound spec := by
  obtain ⟨fresh, rfl⟩ := step
  obtain ⟨book, books⟩ := h.books
  have handed : ∀ k, s.world.disk.record.held = some k → k.attempt.seq < s.world.disk.record.nextSeq :=
    fun k hk => Nat.lt_of_lt_of_eq (books.disk.held k hk).handed books.disk.nextSeq.symm
  obtain ⟨process, act, dies⟩ := m
  cases dies with
  | true =>
    have calm : Turned none (s.world.shows process act) 0 s.world.disk.record [] s.world.disk.record :=
      .calm (.refl _)
    have tally := h.tally.turn calm fresh handed
    rw [append_nil] at tally
    refine ⟨⟨book, books.goto trivial⟩, tally, fun p record l hp => ?_⟩
    rcases World.goto_pushing hp with old | new
    · exact h.submitted p record l old
    · cases new
  | false =>
    obtain ⟨journal, turned⟩ := h.turned ⟨process, act, false⟩
    have tally := h.tally.turn turned fresh handed
    rw [← actions_append, ← journal] at tally
    refine ⟨books.exec admitted process act, tally, fun p record l hp => ?_⟩
    rcases World.exec_pushing books hp with old | new
    · obtain ⟨a, push, turn, ha, hpush, judged, row⟩ := h.submitted p record l old
      refine ⟨a, push, turn, ha, hpush, judged, ?_⟩
      show _ ∈ actions (s.writes spec ⟨process, act, false⟩).journal
      rw [journal, actions_append]
      exact mem_append_left _ row
    obtain ⟨a, b, push, ha, hb, mark, hpush, unqueued⟩ := new.push
    obtain ⟨seq, judged, pushes⟩ := Mark.mk.inj mark
    obtain ⟨turn, same, row⟩ := tally.pending new.alone b push hb (pushes.symm.trans hpush) unqueued
    rw [← seq] at row
    exact ⟨a, push, turn, ha, hpush, judged.trans same, row⟩

lemma Sound.start {outside task manual now w}
    (created : World.create spec outside task manual now = some w) :
    spec.Admitted ∧ Sound spec { world := w } := by
  obtain ⟨admitted, books⟩ := World.create_sound created
  simp only [World.create] at created
  split at created
  · cases created
    refine ⟨admitted, ⟨_, books⟩, ⟨?_, ?_, .nil, ?_, ?_⟩, fun _ _ _ hp => by cases hp⟩
    · exact fun _ hy => by cases hy
    · exact fun _ hrow => by cases hrow
    · exact fun _ _ _ ha => by cases ha
    · exact fun _ _ hk => by cases hk
  · cases created

end Session

section Sections
variable {rest : Option TurnEnd} {y : Option (Nat × TurnEnd)} {message : MessageId}
  {r r' : RunRecord} {rows : List Acted}

section
variable (h : Turned rest y message r rows r')
include h

lemma Turned.carries {row} (hrow : row ∈ rows) : rest = some row.turn := by
  cases h with
  | kept _ _ rests _ carries _ =>
    rw [mem_singleton.mp hrow, carries]
    exact rests
  | pushed _ _ rests _ _ _ _ _ _ =>
    rw [mem_singleton.mp hrow]
    exact rests
  | calm | began | restored | dropped | published | revived | queued => cases hrow

/-- A session that leaves its held slot with a route closes on the turn end the leader rests at. -/
lemma Turned.closes {held a} (hheld : r.held = some held) (alone : r'.held = none)
    (attempt : r'.attempt = some a) (route : (a.ending.bind Ending.route).isSome = true) :
    ∃ turn, rest = some turn ∧ a.judged = some turn := by
  have calm : ¬Calm r r' := fun calm => by
    cases hheld.symm.trans (calm.live alone attempt).1
  cases h with
  | calm c | kept _ _ _ _ _ c => exact absurd c calm
  | began held' | queued held' => cases hheld.symm.trans held'
  | restored _ _ attempt' _ _ close =>
    cases attempt'.symm.trans attempt
    exact close route
  | pushed _ judged rests _ _ attempt' mark _ _ =>
    cases attempt'.symm.trans attempt
    exact ⟨_, rests, (Mark.mk.inj mark).2.1.trans judged⟩
  | dropped _ attempt' _ => cases attempt'.symm.trans attempt
  | published none => cases hheld.symm.trans none
  | revived _ attempt' ending _ _ =>
    cases attempt'.symm.trans attempt
    obtain ⟨e, ending, none⟩ := ending
    rw [ending, bind_some, none] at route
    cases route

/-- A push-back puts the held session back and counts a visit of the node where the run then
stands. -/
lemma Turned.counts : pushBacks rows = [] ∨ ∃ row held a, pushBacks rows = [row] ∧ r.held = some held
    ∧ row.seq = some held.attempt.seq ∧ r'.held = none ∧ r'.attempt = some a ∧
    a.seq = held.attempt.seq
    ∧ r'.visits = r.visits.insert r'.node ((r.visits[r'.node]?.getD {}).bump r'.visitBucket) := by
  cases h with
  | kept _ _ _ action _ _ =>
    refine .inl (List.filter_cons_of_neg ?_)
    rw [action]
    decide
  | pushed held _ _ _ held' attempt' mark _ visit =>
    exact .inr ⟨_, _, _, rfl, held, rfl, held', attempt', (Mark.mk.inj mark).1, visit⟩
  | calm | began | restored | dropped | published | revived | queued => exact .inl rfl

end

end Sections

/-- A verdict acts only on the turn it judged, over every run of a workflow whose leaders show their
turn ends in any order, none again once it was replaced. Processes may die anywhere and others go
on.

Whatever a process does next, a row that keeps or pushes back a turn, and a close that it stages for
a held session, carries the turn end the leader showed at rest in that section; a section pushes
back at most one turn, that of the held session, and counts one visit of that session's step with
it; a submission of it to the host, first or repeated, counts none. No turn end is pushed back
twice, and what a process submits to the host has the message id of the row published with it, the
only one for its turn. -/
theorem verdicts_act_on_their_turn {spec : WorkflowSpec} {outside : List Issue}
    {task : Option String} {manual : Bool} {now : Timestamp} {w : World}
    (created : World.create spec outside task manual now = some w) {s : Session}
    (run : Reachable (· = { world := w }) (Session.Step spec) s) :
    (∀ m, ∀ row ∈ actions (s.rows spec m), m.act.reading.observed.atRest = some row.turn)
    ∧ (∀ m held a, s.world.disk.record.held = some held → (s.writes spec m).record.held = none →
        (s.writes spec m).record.attempt = some a → (a.ending.bind Ending.route).isSome = true →
        ∃ turn, m.act.reading.observed.atRest = some turn ∧ a.judged = some turn)
    ∧ (∀ m, pushBacks (actions (s.rows spec m)) = []
        ∨ ∃ row held a, pushBacks (actions (s.rows spec m)) = [row]
          ∧ s.world.disk.record.held = some held ∧ row.seq = some held.attempt.seq
          ∧ (s.writes spec m).record.attempt = some a ∧ a.seq = held.attempt.seq
          ∧ (s.writes spec m).record.visits = s.world.disk.record.visits.insert a.node
            ((s.world.disk.record.visits[a.node]?.getD {}).bump (s.writes spec m).record.visitBucket))
    ∧ (∀ m record l, (s.world.exec spec m.process m.act).procs m.process = .pushing record l →
        s.world.procs m.process ≠ .pushing record l → pushBacks (actions (s.rows spec m)) = [] →
        (s.writes spec m).record.visits = s.world.disk.record.visits)
    ∧ (∀ p record l i queued, s.world.procs p = .pushing record l →
        (s.writes spec ⟨p, .pushed i queued, false⟩).record.visits = s.world.disk.record.visits)
    ∧ ((pushBacks (actions s.world.disk.journal)).map Acted.turn).Nodup
    ∧ ∀ p record l, s.world.procs p = .pushing record l → ∃ a push turn, record.attempt = some a
        ∧ a.push = some push ∧ a.judged = some turn
        ∧ ⟨.pushed, turn, some a.seq, some push.message⟩ ∈ actions s.world.disk.journal
        ∧ ∀ row ∈ pushBacks (actions s.world.disk.journal), row.turn = turn →
          row.message = some push.message := by
  obtain ⟨admitted, start⟩ := Session.Sound.start created
  have sound : s.Sound spec := by
    refine run.invariant (P := Session.Sound spec) ?_ fun _ _ _ _ h step => h.step admitted step
    rintro _ rfl
    exact start
  obtain ⟨book, books⟩ := sound.books
  refine ⟨fun m row hrow => (sound.turned m).2.carries hrow,
    fun m held a hheld alone attempt route => (sound.turned m).2.closes hheld alone attempt route,
    fun m => ?_, fun m record l pushing new none => ?_,
    fun p record l i queued pushing => World.exec_pushed_visits books pushing i queued, sound.tally.once,
    fun p record l pushing => ?_⟩
  · refine (sound.turned m).2.counts.imp id ?_
    rintro ⟨row, held, a, pushes, hheld, number, alone, attempt, seq, visits⟩
    -- A session that is back in its slot stands where the run does.
    obtain ⟨_, books'⟩ := books.exec admitted m.process m.act
    have here : a.node = (s.writes spec m).record.node := (books'.disk.live a attempt).here alone
    rw [← here] at visits
    exact ⟨row, held, a, pushes, hheld, number, attempt, seq, visits⟩
  · rcases World.exec_pushing books pushing with old | submits
    · exact absurd old new
    rcases submits.visits with same | ⟨es, journal, row, hrow, pushed⟩
    · exact same
    -- The row would be one of the section's.
    have rows : s.rows spec m = es := List.append_cancel_left ((sound.turned m).1.symm.trans journal)
    have mem : row ∈ pushBacks (actions (s.rows spec m)) := by
      rw [rows, pushBacks, mem_filter]
      exact ⟨hrow, decide_eq_true pushed⟩
    rw [none] at mem
    cases mem
  · obtain ⟨a, push, turn, ha, hpush, judged, row⟩ := sound.submitted p record l pushing
    refine ⟨a, push, turn, ha, hpush, judged, row, fun row' hrow' same => ?_⟩
    have published : (⟨.pushed, turn, some a.seq, some push.message⟩ : Acted)
        ∈ pushBacks (actions s.world.disk.journal) := mem_filter.mpr ⟨row, rfl⟩
    rw [List.inj_on_of_nodup_map sound.tally.once hrow' published same]

instance (shown : List (Nat × TurnEnd)) (y : Option (Nat × TurnEnd)) : Decidable (Fresh shown y) :=
  decidable_of_iff (∀ x ∈ y.toList, x.2 ∈ shown.map Prod.snd → shown.getLast? = some x) <| by
    simp only [Option.mem_toList, Fresh]

/-- The session after a list of acts, `none` when one of them shows a turn end that was replaced. -/
def Session.play (spec : WorkflowSpec) (s : Session) : List Move → Option Session
  | [] => some s
  | m :: moves =>
    if Fresh s.shown (s.world.shows m.process m.act) then (s.after spec m).play spec moves else none

lemma Session.reachable_of_play {spec init s t moves} (run : Reachable init (Session.Step spec) s)
    (h : s.play spec moves = some t) : Reachable init (Session.Step spec) t := by
  induction moves generalizing s with
  | nil =>
    cases h
    exact run
  | cons m moves ih =>
    simp only [Session.play] at h
    split at h
    · next fresh => exact ih (run.next ⟨fresh, rfl⟩) h
    · cases h

/-- The first turn fails its test. The advance dies while it writes the push-back, the next one
after it wrote it, before the host is asked; a third one goes on. -/
def resumedTwice : List Move :=
  [⟨0, .advance, false⟩, ⟨0, .prepare (.atInstant 1), false⟩,
    ⟨0, .launched (.rested 6 0) (.ok ⟨"run", "reviewer"⟩), false⟩, ⟨0, .prepare (.rested 7 0), false⟩,
    ⟨0, .evaluated (.atInstant 8) { object := .ok (.object [("outcome", .string "fail")]) }, false⟩,
    ⟨0, .prepare (.rested 9 40), true⟩, ⟨1, .advance, false⟩, ⟨1, .prepare (.rested 10 41), false⟩,
    ⟨1, .die, false⟩, ⟨2, .advance, false⟩, ⟨2, .prepare (.rested 11 42), false⟩]

/-- The process that submits the push-back, with the message id of the record. -/
def Session.submits (s : Session) (p : Host) (message : MessageId) : Bool :=
  match s.world.procs p with
  | .pushing record _ => (record.attempt.bind LiveAttempt.push).any fun push =>
    push.message = message
  | _ => false

/-- The third advance submits the push-back under the id that the second one published. -/
theorem verdicts_act_on_their_turn_resumed_twice : ∃ w s record l a push,
    World.create reviewUntilGreen [] none false 0 = some w
    ∧ ({ world := w } : Session).play reviewUntilGreen resumedTwice = some s
    ∧ s.world.procs 2 = .pushing record l ∧ record.attempt = some a ∧ a.push = some push
    ∧ push.message = 41 ∧ ((pushBacks (actions s.world.disk.journal)).map Acted.turn).Nodup
    ∧ ∀ row ∈ pushBacks (actions s.world.disk.journal), a.judged = some row.turn →
      row.message = some push.message := by
  have played : ((World.create reviewUntilGreen [] none false 0).bind fun w =>
      ({ world := w } : Session).play reviewUntilGreen resumedTwice).any (·.submits 2 41) = true := by
    decide +kernel
  obtain ⟨s, hs, submits⟩ := (any_eq_true _ _).mp played
  obtain ⟨w, created, hplay⟩ := bind_eq_some_iff.mp hs
  have run : Reachable (· = ({ world := w } : Session)) (Session.Step reviewUntilGreen) s :=
    Session.reachable_of_play (.start rfl) hplay
  have acts := verdicts_act_on_their_turn created run
  simp only [Session.submits] at submits
  split at submits
  · next record l pushing =>
    obtain ⟨a, push, turn, ha, hpush, judged, -, single⟩ := acts.2.2.2.2.2.2 2 record l pushing
    rw [ha, bind_some, hpush, any_some, decide_eq_true_eq] at submits
    refine ⟨w, s, record, l, a, push, created, hplay, pushing, ha, hpush, submits, acts.2.2.2.2.2.1,
      fun row hrow e => single row hrow ?_⟩
    exact Option.some.inj (e.symm.trans judged)
  · cases submits

end Rimz.Workflow
