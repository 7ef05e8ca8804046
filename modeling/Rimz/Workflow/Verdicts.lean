import Rimz.Workflow.Calm

/-!
# Verdicts of until sessions

What each section of the engine does to the session of an until step. A turn is judged when the
session becomes held under its first check; the verdict keeps the session held, sends the turn back,
closes the session, or is discarded because the leader has moved on. Everything else is calm.
-/

namespace Rimz.Workflow
open Std Transition

/-- The turn end of a leader at rest with no open ask or stop. -/
def Observed.atRest (o : Observed) : Option TurnEnd := o.eligible.map LeaderTurn.end_

/-- The attempt whose leader `prepare` observes. -/
def RunRecord.leader (r : RunRecord) : Option LiveAttempt :=
  match r.held with
  | some held => some held.attempt
  | none => r.attempt.filter fun a => a.kind = .agent && a.lifecycle = .until_ && a.ending.isNone

/-- The turn end that a reading shows of an attempt's leader. -/
def Reading.shows (i : Reading) (a : LiveAttempt) : Option (Nat × TurnEnd) :=
  i.observed.turn.map fun leader => (a.seq, leader.end_)

/-- The turn end that `prepare` observes. -/
def RunRecord.observes (r : RunRecord) (i : Reading) : Option (Nat × TurnEnd) :=
  if r.state = .active then (r.leader.filter fun a => a.run.isSome).bind i.shows else none

/-- What a section does to a record, with the rows it journals for the actions of verdicts. `rest`
is the turn end the leader showed at rest, `shown` the turn end it showed for the attempt. -/
inductive Turned (rest : Option TurnEnd) (shown : Option (Nat × TurnEnd)) (message : MessageId)
    (r : RunRecord) : List Acted → RunRecord → Prop where
  | calm {r'} (calm : Calm r r') : Turned rest shown message r [] r'
  | began {r' a h' turn} (held : r.held = none) (attempt : r.attempt = some a) (open_ : a.ending = none)
      (queued : ∀ push, a.push = some push → push.queued = true) (rests : rest = some turn)
      (shows : shown = some (a.seq, turn)) (new : a.judged ≠ some turn) (held' : r'.held = some h')
      (mark : h'.attempt.mark = { a.mark with judged := some turn }) (next : r.nextSeq ≤ r'.nextSeq) :
      Turned rest shown message r [] r'
  | kept {r' h turn row} (held : r.held = some h) (judged : h.attempt.judged = some turn)
      (rests : rest = some turn) (action : row.action = .kept) (carries : row.turn = turn)
      (calm : Calm r r') : Turned rest shown message r [row] r'
  | restored {r' h a'} (held : r.held = some h) (held' : r'.held = none) (attempt' : r'.attempt = some a')
      (mark : a'.mark = h.attempt.mark) (next : r.nextSeq ≤ r'.nextSeq)
      (close : (a'.ending.bind Ending.route).isSome = true → ∃ turn, rest = some turn ∧
        a'.judged = some turn) : Turned rest shown message r [] r'
  | pushed {r' h a' turn} (held : r.held = some h) (judged : h.attempt.judged = some turn)
      (rests : rest = some turn) (shows : shown = some (h.attempt.seq, turn)) (held' : r'.held = none)
      (attempt' : r'.attempt = some a')
      (mark : a'.mark = { h.attempt.mark with push := some ⟨message, false⟩ })
      (next : r.nextSeq ≤ r'.nextSeq)
      (visit : r'.visits = r.visits.insert r'.node
        ((r.visits[r'.node]?.getD {}).bump r'.visitBucket)) :
      Turned rest shown message r [⟨.pushed, turn, some h.attempt.seq, some message⟩] r'
  | dropped {r'} (held' : r'.held = none) (attempt' : r'.attempt = none)
      (next : r.nextSeq ≤ r'.nextSeq) : Turned rest shown message r [] r'
  | published {r' a'} (held : r.held = none) (held' : r'.held = none) (attempt' : r'.attempt = some a')
      (new : r.nextSeq ≤ a'.seq) (judged : a'.judged = none) (push : a'.push = none)
      (next : r.nextSeq ≤ r'.nextSeq) : Turned rest shown message r [] r'
  | revived {r' a'} (held' : r'.held = none) (attempt' : r'.attempt = some a')
      (ending : ∃ e, a'.ending = some e ∧ e.route = none) (push : a'.push = none) (next : r.nextSeq ≤ r'.nextSeq) :
      Turned rest shown message r [] r'
  | queued {r' a a' push} (held : r.held = none) (attempt : r.attempt = some a)
      (held' : r'.held = none) (attempt' : r'.attempt = some a') (pending : a.push = some push)
      (mark : a'.mark = { a.mark with push := some { push with queued := true } })
      (ending : a.ending.isSome = true → a'.ending.isSome = true) (next : r.nextSeq ≤ r'.nextSeq) :
      Turned rest shown message r [] r'

namespace Turned
variable {rest : Option TurnEnd} {shown : Option (Nat × TurnEnd)} {message : MessageId}
  {r r₁ r' r'' : RunRecord} {rows : List Acted}

/-- The relation reads the attempt, the session, the next number and the visits. -/
lemma congr (h : Turned rest shown message r rows r') (held : r''.held = r'.held)
    (attempt : r''.attempt = r'.attempt) (next : r''.nextSeq = r'.nextSeq)
    (visits : r''.visits = r'.visits)
    (node : r''.node = r'.node) (bucket : r''.visitBucket = r'.visitBucket) :
    Turned rest shown message r rows r'' := by
  cases h with
  | calm calm => exact .calm (calm.trans (.of_slot next held (.inl attempt)))
  | began h1 h2 h3 h4 h5 h6 h7 h8 h9 h10 =>
    exact .began h1 h2 h3 h4 h5 h6 h7 (held.trans h8) h9 (next ▸ h10)
  | kept h1 h2 h3 h4 h5 calm =>
    exact .kept h1 h2 h3 h4 h5 (calm.trans (.of_slot next held (.inl attempt)))
  | restored h1 h2 h3 h4 h5 h6 =>
    exact .restored h1 (held.trans h2) (attempt.trans h3) h4 (next ▸ h5) h6
  | pushed h1 h2 h3 h4 h5 h6 h7 h8 h9 =>
    refine .pushed h1 h2 h3 h4 (held.trans h5) (attempt.trans h6) h7 (next ▸ h8) ?_
    rw [visits, node, bucket]
    exact h9
  | dropped h1 h2 h3 => exact .dropped (held.trans h1) (attempt.trans h2) (next ▸ h3)
  | published h0 h1 h2 h3 h4 h5 h6 =>
    exact .published h0 (held.trans h1) (attempt.trans h2) h3 h4 h5 (next ▸ h6)
  | revived h1 h2 h3 h4 h5 => exact .revived (held.trans h1) (attempt.trans h2) h3 h4 (next ▸ h5)
  | queued h1 h2 h3 h4 h5 h6 h7 h8 =>
    exact .queued h1 h2 (held.trans h3) (attempt.trans h4) h5 h6 h7 (next ▸ h8)

/-- The edits of the section before it turns anything. -/
lemma of_calm (calm : Calm r r₁) (visits : r₁.visits = r.visits)
    (h : Turned rest shown message r₁ rows r') : Turned rest shown message r rows r' := by
  cases h with
  | calm calm' => exact .calm (calm.trans calm')
  | began h1 h2 h3 h4 h5 h6 h7 h8 h9 h10 =>
    obtain ⟨held, a, attempt, mark, ending⟩ := calm.live h1 h2
    obtain ⟨seq, judged, push⟩ := Mark.mk.inj mark
    refine .began held attempt ?_ (fun p hp => h4 p (push.trans hp)) h5 (seq ▸ h6)
      (judged ▸ h7) h8 ?_ (Nat.le_trans calm.next h10)
    · cases he : a.ending with
      | none => rfl
      | some e =>
        rw [he, h3] at ending
        exact absurd (ending rfl) (by simp)
    · rw [h9, mark]
  | kept h1 h2 h3 h4 h5 calm' =>
    obtain ⟨h, held, mark⟩ := calm.held _ h1
    exact .kept held ((Mark.mk.inj mark).2.1.symm.trans h2) h3 h4 h5 (calm.trans calm')
  | restored h1 h2 h3 h4 h5 h6 =>
    obtain ⟨h, held, mark⟩ := calm.held _ h1
    exact .restored held h2 h3 (h4.trans mark) (Nat.le_trans calm.next h5) h6
  | pushed h1 h2 h3 h4 h5 h6 h7 h8 h9 =>
    obtain ⟨h, held, mark⟩ := calm.held _ h1
    obtain ⟨seq, judged, -⟩ := Mark.mk.inj mark
    rw [seq]
    exact .pushed held (judged.symm.trans h2) h3 (seq ▸ h4) h5 h6 (by rw [h7, mark]) (Nat.le_trans calm.next h8)
      (visits ▸ h9)
  | dropped h1 h2 h3 => exact .dropped h1 h2 (Nat.le_trans calm.next h3)
  | published h0 h1 h2 h3 h4 h5 h6 =>
    exact .published (calm.slot h0).1 h1 h2 (Nat.le_trans calm.next h3) h4 h5 (Nat.le_trans calm.next h6)
  | revived h1 h2 h3 h4 h5 => exact .revived h1 h2 h3 h4 (Nat.le_trans calm.next h5)
  | queued h1 h2 h3 h4 h5 h6 h7 h8 =>
    obtain ⟨held, a, attempt, mark, ending⟩ := calm.live h1 h2
    exact .queued held attempt h3 h4 ((Mark.mk.inj mark).2.2.symm.trans h5) (by rw [h6, mark])
      (fun he => h7 (ending he)) (Nat.le_trans calm.next h8)

end Turned

/-- A transition that has judged nothing since the record `r`. -/
structure Quiet (r : RunRecord) (t : Transition) : Prop where
  record : Calm r t.record
  rows : actions t.entries = []

/-- The journal `js`, with rows that act on no turn. -/
def Extends (js : List JournalEntry) (d : Disk) : Prop :=
  ∃ rows, d.journal = js ++ rows ∧ actions rows = []

/-- A section that found the record `r` and the journal `js`, and leaves `d`. -/
def Judged (i : Reading) (shown : Option (Nat × TurnEnd)) (r : RunRecord) (js : List JournalEntry)
    (d : Disk) : Prop :=
  ∃ rows, d.journal = js ++ rows ∧
    Turned i.observed.atRest shown i.message r (actions rows) d.record

/-- A record that goes to the host has the push-back of the record on disk; unless the section
journaled it, no visit is counted for it. -/
structure Submits (r : RunRecord) (js : List JournalEntry) (d : Disk) (record : RunRecord) :
    Prop where
  alone : d.record.held = none
  push : ∃ a b push, record.attempt = some a ∧ d.record.attempt = some b ∧ a.mark = b.mark
    ∧ a.push = some push ∧ push.queued = false
  visits : d.record.visits = r.visits
    ∨ ∃ es, d.journal = js ++ es ∧ ∃ row ∈ actions es, row.action = .pushed

/-- What a section leaves that ends in a decision. -/
structure Settles (i : Reading) (shown : Option (Nat × TurnEnd)) (r : RunRecord)
    (js : List JournalEntry) (d : Disk) (decision : Decision) : Prop where
  judged : Judged i shown r js d
  submits : ∀ record, decision = .push record → Submits r js d record

/-- The verdict's turn is the one the leader shows at rest. -/
structure Rests (i : Reading) (shown : Option (Nat × TurnEnd)) (a : LiveAttempt) (turn : TurnEnd) :
    Prop where
  judged : a.judged = some turn
  rests : i.observed.atRest = some turn
  shows : shown = some (a.seq, turn)

variable {spec : WorkflowSpec} {d d' : Disk} {t t' : Transition} {r : RunRecord}
  {js : List JournalEntry} {me : Host} {i : Reading} {shown : Option (Nat × TurnEnd)}

lemma Disk.persist_record (d : Disk) (t : Transition) :
    ∃ restart, (d.persist t).record = { t.record with restart } := by
  simp only [Disk.persist]
  split
  · exact ⟨none, rfl⟩
  · exact ⟨t.record.restart, rfl⟩

lemma Disk.persist_slots (d : Disk) (t : Transition) : (d.persist t).record.held = t.record.held
    ∧ (d.persist t).record.attempt = t.record.attempt ∧
    (d.persist t).record.visits = t.record.visits := by
  obtain ⟨restart, e⟩ := d.persist_record t
  rw [e]
  exact ⟨rfl, rfl, rfl⟩

lemma Extends.refl (d : Disk) : Extends d.journal d := ⟨[], (append_nil _).symm, rfl⟩

lemma Extends.persist (h : Extends js d) (rows : actions t.entries = []) :
    Extends js (d.persist t) := by
  obtain ⟨es, journal, none⟩ := h
  refine ⟨es ++ t.entries, ?_, ?_⟩
  · rw [← append_assoc, ← journal]
    rfl
  · rw [actions_append, none, rows]
    rfl

namespace Quiet

lemma start (d : Disk) (now : Timestamp) :
    Quiet d.record { record := d.record, now } := ⟨.refl _, rfl⟩

lemma clock (h : Quiet r t) (now : Timestamp) : Quiet r { t with now } := ⟨h.record, h.rows⟩

lemma after (h : Quiet r t) (calm : t.Calm t') : Quiet r t' :=
  ⟨h.record.trans calm.record, calm.rows.trans h.rows⟩

end Quiet

lemma Turned.write {rows} (same : Extends js d)
    (h : Turned i.observed.atRest shown i.message r rows t.record)
    (acts : actions t.entries = rows) : Judged i shown r js (d.persist t) := by
  obtain ⟨es, journal, none⟩ := same
  obtain ⟨restart, e⟩ := d.persist_record t
  refine ⟨es ++ t.entries, ?_, ?_⟩
  · rw [← append_assoc, ← journal]
    rfl
  · rw [e, actions_append, none, acts]
    exact h.congr rfl rfl rfl rfl rfl rfl

lemma Quiet.write (h : Quiet r t) (same : Extends js d) : Judged i shown r js (d.persist t) :=
  Turned.write same (.calm h.record) h.rows

lemma Judged.calm (same : Extends js d) (h : Calm r d.record) : Judged i shown r js d := by
  obtain ⟨es, journal, none⟩ := same
  exact ⟨es, journal, none ▸ .calm h⟩

lemma Judged.settles (h : Judged i shown r js d) {decision}
    (quiet : ∀ record, decision ≠ .push record) : Settles i shown r js d decision :=
  ⟨h, fun record e => absurd e (quiet record)⟩

/-! ### The session back in the attempt slot -/

/-- The held session of `r` stands in the attempt slot of a transition. -/
structure Restored (r : RunRecord) (held : HeldSession) (t : Transition) : Prop where
  was : r.held = some held
  alone : t.record.held = none
  mark : ∀ a, t.record.attempt = some a → a.mark = held.attempt.mark
  next : r.nextSeq ≤ t.record.nextSeq
  rows : actions t.entries = []

lemma Quiet.restored (h : Quiet r t) (restored : t.restoreSession = some t') :
    ∃ held, Restored r held t' := by
  obtain ⟨held, hheld, e⟩ := Transition.restoreSession_spec restored
  obtain ⟨was, hwas, mark⟩ := h.record.held held hheld
  subst e
  refine ⟨was, hwas, rfl, fun a ha => ?_, h.record.next, h.rows⟩
  cases ha
  exact mark

namespace Restored
variable {held : HeldSession}

lemma after (h : Restored r held t) (calm : t.Calm t') : Restored r held t' := by
  have alone := calm.record.alone h.alone
  refine ⟨h.was, alone, fun a ha => ?_, Nat.le_trans h.next calm.record.next, calm.rows.trans h.rows⟩
  obtain ⟨-, b, hb, mark, -⟩ := calm.record.live alone ha
  exact mark.trans (h.mark b hb)

lemma write (h : Restored r held t) (same : Extends js d) {a} (attempt : t.record.attempt = some a)
    (close : (a.ending.bind Ending.route).isSome = true → ∃ turn, i.observed.atRest = some turn
      ∧ a.judged = some turn) :
    Judged i shown r js (d.persist t) :=
  Turned.write same (.restored h.was h.alone attempt (h.mark a attempt) h.next close) h.rows

/-- The session's end is staged, with a route only for a verdict on the turn the leader rests at. -/
lemma stage (h : Restored r held t) (same : Extends js d) {ending ask}
    (staged : t.stageAgentEnd ending ask = some t')
    (close : ending.route.isSome = true → ∃ turn, i.observed.atRest = some turn
      ∧ held.attempt.judged = some turn) :
    Judged i shown r js (d.persist t') ∧ ∀ me,
      Judged i shown r js (d.persist (t'.editAttempt fun a => { a with host := me })) := by
  have ended := h.after (Transition.stageAgentEnd_calm staged)
  obtain ⟨a, p, ha, -, -, -, e⟩ := Transition.stageAgentEnd_spec staged
  have carries : ending.route.isSome = true → ∃ turn, i.observed.atRest = some turn
      ∧ a.judged = some turn := fun route => by
    obtain ⟨turn, rests, judged⟩ := close route
    exact ⟨turn, rests, (Mark.mk.inj (h.mark a ha)).2.1.trans judged⟩
  subst e
  exact ⟨ended.write same rfl carries,
    fun me => (ended.after (own_calm _ me)).write same rfl carries⟩

end Restored

/-! ### A held session -/

lemma turnEnd_acts {attempt action verdict reason}
    (h : t.turnEnd attempt action verdict reason = some t')
    (rows : actions t.entries = []) : t'.record = t.record ∧ ∃ turn, attempt.judged = some turn
      ∧ (action = .kept → actions t'.entries = [⟨.kept, turn, some attempt.seq, none⟩])
      ∧ (action = .pushed → actions t'.entries =
        [⟨.pushed, turn, some attempt.seq, attempt.push.map PushBack.message⟩]) := by
  obtain ⟨turn, judged, e⟩ := bind_eq_some_iff.mp h
  cases e
  refine ⟨rfl, turn, judged, fun kept => ?_, fun pushed => ?_⟩
  · subst kept
    rw [actions_append, rows]
    rfl
  · subst pushed
    rw [actions_append, rows]
    rfl

/-- What `until::prepare` leaves. -/
def UntilStep.Judged (i : Reading) (shown : Option (Nat × TurnEnd)) (r : RunRecord)
    (js : List JournalEntry) : UntilStep → Prop
  | .decided d _ decision => Settles i shown r js d decision
  | .pass d t => Extends js d ∧ Calm r d.record ∧ Quiet r t ∧ t.record.attempt = r.attempt

section Until
variable {seen : List String} {step : UntilStep} {held : HeldSession} {verdict : Verdict}
  {turn : TurnEnd}

section
variable (h : Quiet r t)
include h

lemma interrupt_restored {reason} (done : t.interrupt reason = some t') :
    ∃ held, Restored r held t' := by
  simp only [Transition.interrupt, bind, bind_eq_some_iff] at done
  obtain ⟨held, -, u, ended, restored⟩ := done
  have abandoned := h.after (t.abandonCheck_calm "canceled")
  exact (abandoned.after (turnEnd_calm (by decide) (by decide) ended)).restored restored

section
variable (same : Extends js d)
include same

lemma untilEnded_judged {outcome cause reason}
    (done : untilEnded d t me i outcome cause reason = some step) :
    step.Judged i shown r js := by
  simp only [untilEnded, bind, bind_eq_some_iff] at done
  obtain ⟨u, interrupted, v, staged, e⟩ := done
  cases e
  obtain ⟨held, restored⟩ := interrupt_restored h interrupted
  exact ((restored.stage same staged fun route => by cases route).2 me).settles fun _ => by simp

section
variable (hheld : t.record.held = some held)
include hheld

lemma untilMovedOn_judged (open_ : held.attempt.ending = none)
    (done : untilMovedOn d t held = some step) : step.Judged i shown r js := by
  simp only [untilMovedOn, bind, bind_eq_some_iff] at done
  obtain ⟨u, ended, v, restored, e⟩ := done
  cases e
  have abandoned := (h.after (t.abandonCheck_calm "canceled")).after (closeWait_calm _)
  have discarded := abandoned.after (turnEnd_calm (by decide) (by decide) ended)
  obtain ⟨was, back⟩ := discarded.restored restored
  obtain ⟨held', hheld', e⟩ := restoreSession_spec restored
  have kept : u.record.held = some held := by
    rw [(turnEnd_spec ended).2, closeWait_held, abandonCheck_record]
    exact hheld
  cases kept.symm.trans hheld'
  subst e
  refine Judged.settles (back.write same rfl fun route => ?_) fun _ => by simp
  rw [open_] at route
  cases route

section
variable (rests : Rests i shown held.attempt turn)
include rests

lemma untilWaits_judged (done : untilWaits spec d t seen held verdict = some step) :
    step.Judged i shown r js := by
  simp only [untilWaits, bind, bind_eq_some_iff] at done
  obtain ⟨u, merged, v, ended, done⟩ := done
  have waited := h.after (mergeWait_calm merged)
  have hheld' : u.record.held = some held := by
    obtain ⟨wait, recheckAt, e⟩ := (mergeWait_waited merged).record
    rw [e]
    exact hheld
  obtain ⟨was, hwas, mark⟩ := h.record.held held hheld
  obtain ⟨e, turn', judged, row, -⟩ := turnEnd_acts ended waited.rows
  cases rests.judged.symm.trans judged
  -- The session is held on, with its mark.
  have held_on : Calm r v.record := by
    rw [e]
    exact waited.record.trans (.of_held rfl hheld' rfl rfl)
  have kept : ∀ v' : Transition, Calm r v'.record → v'.entries = v.entries →
      Judged i shown r js (d.persist v') := fun v' calm entries =>
    Turned.write same (.kept hwas ((Mark.mk.inj mark).2.1.symm.trans judged) rests.rests rfl rfl calm)
      (entries ▸ row rfl)
  split at done
  · cases done
    refine Judged.settles (kept _ ?_ ?_) fun _ => by simp
    · exact held_on.trans (.of_slot rfl rfl (.inl rfl))
    · rfl
  · cases done
    exact Judged.settles (kept v held_on rfl) fun _ => by simp

lemma untilMoves_judged (done : untilMoves d t seen held verdict = some step) :
    step.Judged i shown r js := by
  obtain ⟨u, ended, e⟩ := bind_eq_some_iff.mp done
  cases e
  have closed := h.after t.closeWait_calm
  obtain ⟨was, hwas, mark⟩ := h.record.held held hheld
  obtain ⟨e, turn', judged, row, -⟩ := turnEnd_acts ended closed.rows
  cases rests.judged.symm.trans judged
  refine Judged.settles ?_ fun _ => by simp
  refine Turned.write same
    (.kept hwas ((Mark.mk.inj mark).2.1.symm.trans judged) rests.rests rfl rfl ?_)
    (row rfl)
  have next : u.record.nextSeq = t.closeWait.record.nextSeq := congrArg RunRecord.nextSeq e
  exact closed.record.trans (.of_held next (t.closeWait_held.trans hheld) rfl rfl)

lemma untilCloses_judged (done : untilCloses d t me i verdict = some step) :
    step.Judged i shown r js := by
  simp only [untilCloses, bind, bind_eq_some_iff] at done
  obtain ⟨u, restored, v, staged, e⟩ := done
  cases e
  obtain ⟨was, back⟩ := h.restored restored
  obtain ⟨was', hwas', mark⟩ := h.record.held held hheld
  cases back.was.symm.trans hwas'
  exact ((back.stage same staged fun _ =>
    ⟨turn, rests.rests,
    (Mark.mk.inj mark).2.1.symm.trans rests.judged⟩).2 me).settles fun _ => by simp

end

/-- The push-back of a turn: one visit, and the message the host is to queue. -/
lemma untilPushBack_judged (visits : t.record.visits = r.visits)
    (rests : Rests i shown held.attempt turn)
    (done : untilPushBack spec d t me i verdict = some step) : step.Judged i shown r js := by
  simp only [untilPushBack, bind, bind_eq_some_iff] at done
  obtain ⟨u, restored, definition, -, done⟩ := done
  obtain ⟨was, back⟩ := (h.after t.closeWait_calm).restored restored
  obtain ⟨was', hwas', mark⟩ := h.record.held held hheld
  cases back.was.symm.trans hwas'
  have judged : was.attempt.judged = some turn := (Mark.mk.inj mark).2.1.symm.trans rests.judged
  split at done
  · simp only [bind_eq_some_iff, Prod.exists] at done
    obtain ⟨v, route, capped, x, staged, e⟩ := done
    cases e
    have keyed := back.after (u.edit_calm (f := fun r =>
      { r with key := verdict.object.key, input := some verdict.object }) rfl rfl (.inl rfl))
    exact (((keyed.after (capRoute_calm capped)).stage same staged fun _ =>
      ⟨turn, rests.rests, judged⟩).2 me).settles fun _ => by simp
  simp only [bind_eq_some_iff] at done
  obtain ⟨attempt, hattempt, v, ended, e⟩ := done
  cases e
  obtain ⟨held', hheld', e⟩ := restoreSession_spec restored
  rw [closeWait_held] at hheld'
  cases hheld.symm.trans hheld'
  subst e
  cases hattempt
  obtain ⟨e, turn', judged', -, row⟩ := turnEnd_acts ended back.rows
  cases rests.judged.symm.trans judged'
  have rows := row rfl
  have seq : held.attempt.seq = was.attempt.seq := (Mark.mk.inj mark).1
  have unchanged : t.closeWait.record.visits = r.visits := by
    rw [closeWait_record]
    exact visits
  have turned : Turned i.observed.atRest shown i.message r
      [⟨.pushed, turn, some was.attempt.seq, some i.message⟩] v.record := by
    rw [e]
    refine .pushed back.was judged rests.rests (seq ▸ rests.shows) rfl rfl ?_ back.next ?_
    · rw [← mark]
      rfl
    · rw [← unchanged]
      rfl
  rw [seq] at rows
  refine ⟨turned.write same rows, fun record e' => ?_⟩
  cases e'
  obtain ⟨alone, slot, -⟩ := d.persist_slots v
  refine ⟨?_, ?_, .inr ?_⟩
  · rw [alone, e]
    rfl
  · rw [slot, e]
    exact ⟨_, _, _, rfl, rfl, rfl, rfl, rfl⟩
  · obtain ⟨es, journal, -⟩ := same
    refine ⟨es ++ v.entries, ?_, ⟨.pushed, turn, some was.attempt.seq, some i.message⟩, ?_, rfl⟩
    · rw [← append_assoc, ← journal]
      rfl
    · rw [actions_append, rows]
      exact mem_append_right _ (mem_singleton.mpr rfl)

end

end

end

/-- `until::prepare` acts only on the turn the leader rests at. -/
lemma untilPrepare_judged (h : Quiet d.record t) (same : t.record = d.record)
    (open_ : ∀ held, d.record.held = some held → held.attempt.ending = none)
    (shows : ∀ held leader, d.record.held = some held → held.attempt.run.isSome = true →
      i.observed.turn = some leader → shown = some (held.attempt.seq, leader.end_))
    (done : untilPrepare spec d t me i seen = some step) :
    step.Judged i shown d.record d.journal := by
  simp only [untilPrepare, bind, bind_eq_some_iff] at done
  obtain ⟨held, hheld, run, hrun, done⟩ := done
  obtain ⟨asking, heldSince, askedMs, e⟩ := hold_spec held.attempt i.observed.ask i.observed.stopped
    i.observedAt
  set attempt := (held.attempt.hold i.observed.ask i.observed.stopped i.observedAt).1
  have mark : attempt.mark = held.attempt.mark := by
    rfl
  have was : d.record.held = some held := same ▸ hheld
  have visits : t.record.visits = d.record.visits := congrArg RunRecord.visits same
  have slot : t.record.attempt = d.record.attempt := congrArg RunRecord.attempt same
  set u : Transition :=
    { t with now := i.observedAt }.edit fun r => { r with held := some { held with attempt } }
  have hu : Quiet d.record u := ⟨h.record.trans (.of_held rfl hheld rfl mark), h.rows⟩
  have kept : ∀ changed : Bool, Extends d.journal (if changed = true then d.persist u else d)
      ∧ Calm d.record (if changed = true then d.persist u else d).record := by
    intro changed
    split
    · obtain ⟨restart, e⟩ := d.persist_record u
      refine ⟨(Extends.refl d).persist hu.rows, ?_⟩
      rw [e]
      exact hu.record.trans (.of_slot rfl rfl (.inl rfl))
    · exact ⟨.refl d, .refl _⟩
  have quiet : ∀ changed : Bool, UntilStep.Judged i shown d.record d.journal
      (.decided (if changed = true then d.persist u else d) seen .stop) := fun changed =>
    (Judged.calm (kept changed).1 (kept changed).2).settles fun _ => by simp
  split at done
  · exact untilEnded_judged hu (.refl d) done
  split at done
  · exact untilEnded_judged hu (.refl d) done
  split at done
  · refine untilMovedOn_judged hu (.refl d) rfl ?_ done
    show attempt.ending = none
    exact open_ held was
  rename_i stays
  rw [not_or, not_not] at stays
  have rests : i.observed.eligible.isNone ≠ true → ∃ turn, Rests i shown attempt turn := by
    intro eligible
    rw [ne_eq, isNone_iff_eq_none] at eligible
    obtain ⟨leader, hleader⟩ := ne_none_iff_exists'.mp eligible
    have turn := (filter_eq_some_iff.mp hleader).1
    refine ⟨leader.end_, ?_, ?_, ?_⟩
    · exact stays.1.symm.trans (by rw [turn]; rfl)
    · rw [Observed.atRest, hleader]
      rfl
    · rw [(Mark.mk.inj mark).1]
      exact shows held leader was (hrun ▸ rfl) turn
  split at done
  · cases done
    exact ⟨(kept _).1, (kept _).2, hu, slot⟩
  rename_i verdict hverdict
  split at done
  · next waits =>
    have waiting : held.verdict.all (fun v => v.target = "@wait") = true := by
      rw [show held.verdict = some verdict from hverdict, all_some, decide_eq_true_eq]
      exact waits
    obtain ⟨turn, rests⟩ := rests fun none => stays.2 ⟨waiting, none⟩
    exact untilWaits_judged hu (.refl d) rfl rests done
  split at done
  · split at done
    · cases done
      exact quiet _
    · next eligible =>
      obtain ⟨turn, rests⟩ := rests eligible
      exact untilPushBack_judged hu (.refl d) rfl visits rests done
  obtain ⟨definition, -, done⟩ := bind_eq_some_iff.mp done
  split at done
  · split at done
    · cases done
      exact quiet _
    · next eligible =>
      obtain ⟨turn, rests⟩ := rests eligible
      exact untilMoves_judged hu (.refl d) rfl rests done
  split at done
  · cases done
    exact quiet _
  rename_i eligible
  rw [not_or] at eligible
  obtain ⟨turn, rests⟩ := rests eligible.2
  exact untilCloses_judged hu (.refl d) rfl rests done

end Until

/-! ### The preparation of an attempt -/

/-- `until::begin`: the turn the leader rests at is judged, once. -/
lemma begin_turned {rest message observed a} (calm : Calm r t.record)
    (visits : t.record.visits = r.visits)
    (alone : t.record.held = none) (ha : t.record.attempt = some a) (open_ : a.ending = none)
    (queued : ∀ push, a.push = some push → push.queued = true)
    (shows : ∀ leader, observed.eligible = some leader → a.lifecycle = .until_ →
      rest = some leader.end_ ∧ shown = some (a.seq, leader.end_))
    (done : t.begin spec observed = some (some t')) :
    Turned rest shown message r [] t'.record ∧ t'.entries = t.entries := by
  simp only [Transition.begin, bind, bind_eq_some_iff] at done
  obtain ⟨b, hb, done⟩ := done
  cases ha.symm.trans hb
  split at done
  · cases done
  rename_i leader hleader
  split at done
  · cases done
  rename_i new
  rw [not_or, not_not] at new
  simp only [bind_eq_some_iff] at done
  obtain ⟨step, -, check, -, e⟩ := done
  cases e
  obtain ⟨rests, hshown⟩ := shows leader hleader new.1
  exact ⟨.of_calm calm visits (.began alone ha open_ queued rests hshown new.2 rfl rfl (Nat.le_refl _)),
    rfl⟩

/-- What `agent::prepare_end` leaves: it may hold the session, submit its push-back again, or leave
its caller the end of the attempt. -/
lemma prepareEnd_judged (same : Extends js d) (hd : Calm r d.record) (h : Quiet r t)
    (alone : t.record.held = none)
    (slot : d.record.held = none ∧ d.record.attempt = t.record.attempt)
    (visits : d.record.visits = r.visits ∧ t.record.visits = r.visits)
    (shows : ∀ a leader, t.record.attempt = some a → a.ending = none → a.run.isSome = true →
      a.lifecycle = .until_ → i.observed.turn = some leader → shown = some (a.seq, leader.end_))
    {decision} (done : prepareEnd spec d t me i = some (d', t', decision)) :
    Settles i shown r js d' decision ∧ ∀ record, decision = .end_ record → Extends js d' ∧
    Quiet r t' := by
  simp only [prepareEnd, bind, bind_eq_some_iff] at done
  obtain ⟨a, ha, done⟩ := done
  split at done
  · next ending hending =>
    split at done
    · cases done
      exact ⟨(Judged.calm same hd).settles fun _ => by simp, fun _ e => by cases e⟩
    simp only [bind_eq_some_iff] at done
    obtain ⟨u, restaged, e⟩ := done
    cases e
    have hu : Quiet r u := by
      simp only [restage] at restaged
      split at restaged
      · exact h.after (stageAgentEnd_calm restaged)
      · cases restaged
        exact h
    have owned := hu.after (u.own_calm me)
    exact ⟨(owned.write same).settles fun _ => by simp, fun _ _ => ⟨same.persist owned.rows, owned⟩⟩
  rename_i open_
  set observed : Observed := if a.run.isSome = true then i.observed else {}
  obtain ⟨asking, heldSince, askedMs, e⟩ := hold_spec a observed.ask observed.stopped i.observedAt
  set held := (a.hold observed.ask observed.stopped i.observedAt).1
  have mark : held.mark = a.mark := by
    rfl
  set u : Transition := { t with now := i.observedAt }.edit fun r => { r with attempt := some held }
  have hu : Quiet r u := by
    refine ⟨h.record.trans (.of_live rfl rfl ha rfl mark fun ended => ?_), h.rows⟩
    rw [open_] at ended
    cases ended
  have live : u.record.attempt = some held ∧ u.record.held = none ∧ u.record.visits = r.visits :=
    ⟨rfl, alone, visits.2⟩
  have still : held.ending = none ∧ held.lifecycle = a.lifecycle := by
    rw [e]
    exact ⟨open_, rfl⟩
  have rest : ∀ leader, observed.eligible = some leader → held.lifecycle = .until_ →
      i.observed.atRest = some leader.end_ ∧ shown = some (held.seq, leader.end_) := by
    intro leader hleader until_
    simp only [observed] at hleader
    split at hleader
    · next run =>
      rw [Observed.atRest, hleader, (Mark.mk.inj mark).1]
      exact ⟨rfl, shows a leader ha open_ run (still.2 ▸ until_) (filter_eq_some_iff.mp hleader).1⟩
    · cases hleader
  clear_value u held
  have kept : ∀ changed : Bool, Judged i shown r js (if changed = true then d.persist u else d) := by
    intro changed
    split
    · exact hu.write same
    · exact .calm same hd
  split at done
  · obtain ⟨v, staged, done⟩ := bind_eq_some_iff.mp done
    have hv := hu.after (stageAgentEnd_calm staged)
    split at done
    · cases done
      exact ⟨(hv.write same).settles fun _ => by simp, fun _ e => by cases e⟩
    · cases done
      have owned := hv.after (v.own_calm me)
      exact ⟨(owned.write same).settles fun _ => by simp, fun _ _ => ⟨same.persist owned.rows, owned⟩⟩
  split at done
  · next pending =>
    cases done
    refine ⟨⟨kept _, fun record e => ?_⟩, fun _ e => by cases e⟩
    cases e
    obtain ⟨push, hpush, unqueued⟩ := (any_eq_true _ _).mp pending
    have queued : push.queued = false := by simpa using unqueued
    have pushed : held.push = some push := (Mark.mk.inj mark).2.2.trans hpush
    -- The record on disk has the attempt, with or without the hold.
    split
    · obtain ⟨alone', slot', visits'⟩ := d.persist_slots t'
      exact ⟨alone'.trans live.2.1, ⟨held, held, push, live.1, slot'.trans live.1, rfl, pushed, queued⟩,
        .inl (visits'.trans live.2.2)⟩
    · exact ⟨slot.1, ⟨held, a, push, live.1, slot.2.trans ha, mark, pushed, queued⟩, .inl visits.1⟩
  rename_i settled
  obtain ⟨begun, hbegun, done⟩ := bind_eq_some_iff.mp done
  cases begun with
  | none =>
    cases done
    exact ⟨(kept _).settles fun _ => by simp, fun _ e => by cases e⟩
  | some v =>
    cases done
    refine ⟨Judged.settles ?_ fun _ => by simp, fun _ e => by cases e⟩
    have queued : ∀ push, held.push = some push → push.queued = true := by
      intro push hpush
      rw [(Mark.mk.inj mark).2.2.symm.trans hpush, any_some] at settled
      simpa using settled
    obtain ⟨turned, entries⟩ := begin_turned hu.record live.2.2 live.2.1 live.1 still.1 queued rest hbegun
    exact turned.write same (entries ▸ hu.rows)

section Prepare
variable {l l' : Local} {node : NodeStep} {decision : Decision}

/-- What the preparation of a node leaves. -/
def NodeStep.Judged (i : Reading) (shown : Option (Nat × TurnEnd)) (r : RunRecord)
    (js : List JournalEntry) : NodeStep → Prop
  | .decided d _ decision => Settles i shown r js d decision
  | .pass t _ _ => Quiet r t

lemma Quiet.decide (h : Quiet r t) (same : Extends js d) (calm : t.Calm t')
    (quiet : ∀ record, decision ≠ .push record) : Settles i shown r js (d.persist t') decision :=
  ((h.after calm).write same).settles quiet

lemma prepareNode_judged (same : Extends js d) (hd : Calm r d.record) (h : Quiet r t)
    (done : prepareNode spec d t i l = some node) : node.Judged i shown r js := by
  cases prepareNode_prepares done with
  | waits l now outcome detail wait =>
    refine (h.clock now).decide same ((stepWait_calm _ outcome detail).trans ⟨?_, rfl⟩) fun _ => by simp
    obtain ⟨wait, recheckAt, e⟩ := wait ({ t with now }.stepWait outcome detail).record
    rw [Transition.edit, e]
    exact .of_slot rfl rfl (.inl rfl)
  | gives l now _ _ _ _ _ _ routed =>
    exact (h.clock now).decide same (engineRoute_calm routed) fun _ => by simp
  | caps l _ _ capped routed =>
    exact h.decide same ((capRoute_calm capped).trans (route_calm routed)) fun _ => by simp
  | passes l now error closed room =>
    rcases closed with rfl | rfl
    · exact h.clock now
    · exact (h.after t.closeWait_calm).clock now
  | _ => exact (Judged.calm same hd).settles fun _ => by simp

lemma countVisit_calm (t : Transition) : t.Calm (countVisit t) := by
  simp only [countVisit]
  exact t.closeWait_calm.trans (edit_calm _ rfl rfl (.inl rfl))

lemma stageOversized_calm {a} (ha : t.record.attempt = some a)
    (staged : stageOversized t l = some t') : t.Calm t' ∧ ∃ b, t'.record.attempt = some b := by
  simp only [stageOversized] at staged
  split at staged
  · refine ⟨stageAgentEnd_calm staged, ?_⟩
    obtain ⟨b, p, -, -, -, -, e⟩ := stageAgentEnd_spec staged
    subst e
    exact ⟨_, rfl⟩
  · cases staged
    exact ⟨.refl t, a, ha⟩

/-- The publication of an attempt: of the first turn of a session, or of a check beside a held
one. -/
lemma publish_judged (same : Extends js d) (h : Quiet r t) {error}
    (done : publish spec d t me i l error = some (d', l', decision)) :
    Settles i shown r js d' decision := by
  obtain ⟨v, staged, done⟩ := bind_eq_some_iff.mp done
  obtain ⟨u, hu⟩ : ∃ u, (if spec.steps.contains t.record.node then countVisit t else t) = u :=
    ⟨_, rfl⟩
  rw [hu] at staged done
  have counted : Quiet r u := by
    rw [← hu]
    split
    · exact h.after (countVisit_calm t)
    · exact h
  obtain ⟨calm, b, hb⟩ := stageOversized_calm (a := newAttempt spec u me) rfl staged
  have rows : actions v.entries = [] := calm.rows.trans counted.rows
  have written : Judged i shown r js (d.persist v) := by
    cases hheld : u.record.held with
    | some held =>
      -- The session stays held beside its check.
      have beside : Calm u.record v.record := by
        refine Calm.trans ⟨Nat.le_succ _, fun k hk => ?_, fun hn => ?_⟩ calm.record
        · obtain ⟨k', hk', e⟩ := map_eq_some_iff.mp hk
          exact ⟨k', hk', e ▸ rfl⟩
        · cases (map_eq_none_iff.mp hn).symm.trans hheld
      exact Turned.write same (.calm (counted.record.trans beside)) rows
    | none =>
      have alone := calm.record.alone (map_eq_none_iff.mpr hheld)
      obtain ⟨-, a, ha, mark, -⟩ := calm.record.live alone hb
      cases ha
      obtain ⟨seq, judged, push⟩ := Mark.mk.inj mark
      refine Turned.write same (.published (counted.record.slot hheld).1 alone hb ?_ judged push ?_) rows
      · rw [seq]
        exact counted.record.next
      · exact Nat.le_trans counted.record.next (Nat.le_trans (Nat.le_succ _) calm.record.next)
  split at done
  all_goals
    cases done
    exact written.settles fun _ => by simp

lemma afterBound_judged (same : Extends js d) (h : Quiet r t) {again}
    (e : afterBound d t l again = (d', l', decision)) : Settles i shown r js d' decision := by
  obtain ⟨rfl, -, rfl⟩ := e
  refine (h.write same).settles fun record => ?_
  split <;> simp

lemma prepareOn_judged (same : Extends js d) (hd : Calm r d.record) (h : Quiet r t)
    (done : prepareOn spec d t me i l = some (d', l', decision)) :
    Settles i shown r js d' decision := by
  simp only [prepareOn, bind, bind_eq_some_iff, Prod.exists] at done
  obtain ⟨bounded, due, hbound, done⟩ := done
  split at done
  · exact afterBound_judged same (h.after (bound_calm hbound)) (Option.some.inj done)
  split at done
  · split at done
    · cases done
      exact (Judged.calm same hd).settles fun _ => by simp
    obtain ⟨⟨u, settled⟩, finished, e⟩ := bind_eq_some_iff.mp done
    cases e
    exact h.decide same (finishScript_calm finished) fun _ => by simp
  split at done
  · cases done
    refine h.decide same ?_ fun _ => by simp
    split
    · exact t.edit_calm rfl rfl (.inl rfl)
    · exact .refl t
  obtain ⟨node, hnode, done⟩ := bind_eq_some_iff.mp done
  have judged : node.Judged i shown r js := prepareNode_judged same hd h hnode
  cases node with
  | decided d' l' decision =>
    cases done
    exact judged
  | pass u l' error =>
    obtain ⟨⟨bounded, due⟩, hbound, done⟩ := bind_eq_some_iff.mp done
    have timed := Quiet.clock judged i.launchAt
    split at done
    · exact afterBound_judged same (timed.after (bound_calm hbound)) (Option.some.inj done)
    · exact publish_judged same timed done

lemma RunRecord.observes_of_leader {a leader} (active : r.state = .active) (ha : r.leader = some a)
    (run : a.run.isSome = true) (turn : i.observed.turn = some leader) :
    r.observes i = some (a.seq, leader.end_) := by
  rw [RunRecord.observes, if_pos active, ha, filter_some, if_pos run, bind_some, Reading.shows,
    turn]
  rfl

/-- `prepare` acts only on the turn the leader rests at. -/
lemma prepare_judged {book} (hd : d.Sound spec book)
    (done : prepare spec d me i l = some (d', l', decision)) :
    Settles i (d.record.observes i) d.record d.journal d' decision := by
  simp only [prepare] at done
  split at done
  · cases done
    exact (Judged.calm (.refl d) (.refl _)).settles fun _ => by simp
  rename_i active
  rw [not_not] at active
  simp only [bind, bind_eq_some_iff] at done
  obtain ⟨step, hstep, done⟩ := done
  simp only [prepareHeld] at hstep
  split at hstep
  · next holds =>
    have judged : step.Judged i (d.record.observes i) d.record d.journal := by
      refine untilPrepare_judged (Quiet.start d i.now) rfl
        (fun held hheld => (hd.held held hheld).open_) (fun held leader hheld run turn => ?_) hstep
      refine RunRecord.observes_of_leader active ?_ run turn
      rw [RunRecord.leader, hheld]
    cases step with
    | decided d' seen decision =>
      cases done
      exact judged
    | pass e u =>
      obtain ⟨same, calm, quiet, slot⟩ := judged
      dsimp only at done
      split at done
      · -- The attempt beside a held session is a check's.
        next agent =>
        rw [slot] at agent
        obtain ⟨a, ha, kind⟩ := (any_eq_true _ _).mp agent
        obtain ⟨held, hheld⟩ := isSome_iff_exists.mp holds
        exact absurd ((hd.live a ha).kind.mp (of_decide_eq_true kind)) ((hd.held held hheld).alone a ha)
      · exact prepareOn_judged same calm quiet done
  · next alone =>
    cases hstep
    have alone : d.record.held = none := not_isSome_iff_eq_none.mp alone
    dsimp only at done
    split at done
    · next agent =>
      simp only [bind_eq_some_iff, Prod.exists] at done
      obtain ⟨e, u, decision', ended, e'⟩ := done
      cases e'
      refine (prepareEnd_judged (.refl d) (.refl _) (Quiet.start d i.now) alone ⟨alone, rfl⟩
        ⟨rfl, rfl⟩ (fun a leader ha open_ run until_ turn => ?_) ended).1
      refine RunRecord.observes_of_leader active ?_ run turn
      obtain ⟨b, hb, kind⟩ := (any_eq_true _ _).mp agent
      cases ha.symm.trans hb
      rw [RunRecord.leader, alone]
      simp only [show d.record.attempt = some a from ha, filter_some, kind, until_, open_]
      rfl
    · exact prepareOn_judged (.refl d) (.refl _) (Quiet.start d i.now) done

end Prepare

/-! ### Results of work outside the lock -/

section Results
variable {book : Book} {record : RunRecord} {next : Next}

lemma Quiet.judges (h : Quiet d.record t) : Judged i shown d.record d.journal (d.persist t) :=
  h.write (.refl d)

lemma Judged.idle (d : Disk) : Judged i shown d.record d.journal d := .calm (.refl d) (.refl _)

lemma takeResult_calm {attempt seen seen' result rechecked}
    (done : takeResult spec t record attempt seen result = some (t', seen', rechecked)) :
    t.Calm t' := by
  simp only [takeResult, bind, bind_eq_some_iff, Prod.exists] at done
  obtain ⟨u, retry, finished, done⟩ := done
  have calm : t.Calm u := by
    simp only [finishEvaluation] at finished
    split at finished
    · exact finishJudge_calm finished
    · simp only [map_eq_some_iff, Prod.mk.injEq] at finished
      obtain ⟨v, checked, e, -⟩ := finished
      exact e ▸ finishCheck_calm checked
  split at done
  · cases done
    exact calm.trans (u.edit_calm rfl rfl (.inl rfl))
  · cases done
    exact calm

lemma evaluated_judged {seen seen' result}
    (done : evaluated spec d i record seen result = some (d', seen', next)) :
    Judged i shown d.record d.journal d' := by
  simp only [evaluated, bind, bind_eq_some_iff] at done
  obtain ⟨attempt, -, done⟩ := done
  split at done
  · cases done
    exact .idle d
  simp only [bind_eq_some_iff, Prod.exists] at done
  obtain ⟨bounded, due, hbound, u, seen, rechecked, taken, e⟩ := done
  cases e
  refine Quiet.judges ((Quiet.start d i.now).after ?_)
  split at taken
  · cases taken
    exact bound_calm hbound
  · exact takeResult_calm taken

lemma commandEnded_judged {result} (done : commandEnded spec d i record result = some (d', next)) :
    Judged i shown d.record d.journal d' := by
  simp only [commandEnded, bind, bind_eq_some_iff] at done
  obtain ⟨attempt, -, done⟩ := done
  split at done
  · cases done
    exact .idle d
  simp only [bind_eq_some_iff, Prod.exists] at done
  obtain ⟨u, settled, finished, e⟩ := done
  cases e
  exact Quiet.judges ((Quiet.start d i.now).after (finishScript_calm finished))

lemma ownEnd_judged (same : Extends js d) (h : Quiet r t) {reason}
    (e : ownEnd me d t reason = (d', next)) : Judged i shown r js d' := by
  obtain ⟨rfl, -⟩ := e
  exact (h.after (t.own_calm me)).write same

/-- The turn end that a launch observes once its run is known. -/
def RunRecord.observesLaunched (r : RunRecord) (record : RunRecord) (i : Reading) :
    Option (Nat × TurnEnd) :=
  record.attempt.bind fun b =>
    (r.attempt.filter fun a => r.state = .active && a.seq = b.seq && a.lifecycle = .until_
      && a.ending.isNone).bind i.shows

/-- The section after a launch observes the leader like `prepare`. -/
lemma launched_judged (hd : d.Sound spec book)
    (owner : ∀ a, record.attempt = some a → book.agent a.seq)
    {result} (sees : ∀ run, result = .ok run → shown = d.record.observesLaunched record i)
    (done : launched spec d me i record result = some (d', next)) :
    Judged i shown d.record d.journal d' := by
  simp only [launched, bind, bind_eq_some_iff] at done
  obtain ⟨attempt, hattempt, done⟩ := done
  split at done
  · cases done
    exact .idle d
  rename_i cur
  simp only [not_eq_true', not_eq_false] at cur
  have alone : d.record.held = none :=
    ((Transition.Sound.start hd i.now).current_live cur (owner attempt hattempt)).2
  obtain ⟨active, a, ha, seq⟩ := current_attempt cur
  generalize hu : (if record.restart.isSome = true ∧ d.record.restart = record.restart then
    Transition.edit { record := d.record, now := i.now } fun r => { r with restart := none }
    else { record := d.record, now := i.now }) = u at done
  have cleared : Quiet d.record u ∧ u.record.held = none ∧ u.record.attempt = some a
      ∧ u.record.visits = d.record.visits := by
    rw [← hu]
    split
    · exact ⟨(Quiet.start d i.now).after (edit_calm _ rfl rfl (.inl rfl)), alone, ha, rfl⟩
    · exact ⟨Quiet.start d i.now, alone, ha, rfl⟩
  obtain ⟨quiet, alone', ha', visits⟩ := cleared
  cases result with
  | error failure =>
    obtain ⟨v, staged, e⟩ := bind_eq_some_iff.mp done
    have failed : u.Calm v := by
      simp only [stageFailed] at staged
      split at staged
      · exact stageAgentEnd_calm staged
      · cases staged
        exact .refl u
    exact ownEnd_judged (.refl d) (quiet.after failed) (Option.some.inj e)
  | ok run =>
    set v := u.editAttempt fun a => { a with run := some run }
    have ran : Quiet d.record v := quiet.after (u.editAttempt_calm (fun _ => rfl) fun _ => id)
    have journal := (Extends.refl d).persist ran.rows
    obtain ⟨held, slot, visits'⟩ := d.persist_slots v
    dsimp only at done
    split at done
    · simp only [bind_eq_some_iff, Prod.exists] at done
      obtain ⟨e, w, decision, ended, done⟩ := done
      have calm : Calm d.record (d.persist v).record := by
        obtain ⟨restart, e⟩ := d.persist_record v
        rw [e]
        exact ran.record.trans (.of_slot rfl rfl (.inl rfl))
      have observes : ∀ b leader, v.record.attempt = some b → b.ending = none → b.run.isSome = true →
          b.lifecycle = .until_ → i.observed.turn = some leader → shown = some (b.seq, leader.end_) := by
        intro b leader hb open_ _ until_ turn
        rw [sees run rfl]
        rw [show v.record.attempt = u.record.attempt.map _ from rfl, ha'] at hb
        cases hb
        rw [RunRecord.observesLaunched, hattempt, bind_some, show d.record.attempt = some a from ha,
          filter_some, if_pos ?_, bind_some, Reading.shows, turn]
        · rfl
        · simp only [show d.record.state = .active from active, seq, show a.lifecycle =
            .until_ from until_, show a.ending = none from open_]
          rfl
      obtain ⟨settles, ends⟩ := prepareEnd_judged journal calm ran alone' ⟨held.trans alone', slot⟩
        ⟨visits'.trans visits, visits⟩ observes ended
      split at done
      · cases done
        exact settles.judged
      · obtain ⟨same, quiet⟩ := ends _ rfl
        exact ownEnd_judged same quiet (Option.some.inj done)
      · cases done
        exact settles.judged
    · exact ownEnd_judged journal ran (Option.some.inj done)

lemma finished_judged {reason orphan}
    (done : finished spec d i record reason orphan = some (d', next)) :
    Judged i shown d.record d.journal d' := by
  simp only [finished, bind, bind_eq_some_iff] at done
  obtain ⟨attempt, -, detached, -, done⟩ := done
  split at done
  · cases done
    exact .idle d
  simp only [bind_eq_some_iff] at done
  obtain ⟨now, -, detaching, -, done⟩ := done
  split at done
  · cases done
    exact .idle d
  obtain ⟨u, settled, e⟩ := bind_eq_some_iff.mp done
  cases e
  have ran := (Quiet.start d i.now).after (editAttempt_calm _ (f := fun a =>
    { a with run := attempt.run.or orphan }) (fun _ => rfl) fun _ => id)
  exact (ran.after (settleAgent_calm settled)).judges

/-- The host's answer to a push-back: it is marked queued, and no visit is counted for it. -/
lemma pushed_judged (hd : d.Sound spec book)
    (owner : ∀ a, record.attempt = some a → book.agent a.seq)
    {queued} (done : pushed d i record queued = some (d', next)) :
    Judged i shown d.record d.journal d' ∧ d'.record.visits = d.record.visits := by
  simp only [pushed, bind, bind_eq_some_iff] at done
  obtain ⟨attempt, hattempt, push, -, done⟩ := done
  split at done
  · cases done
    exact ⟨.idle d, rfl⟩
  rename_i cur
  simp only [or_eq_true, not_or, not_eq_true', not_eq_false] at cur
  have alone : d.record.held = none :=
    ((Transition.Sound.start hd i.now).current_live cur.2 (owner attempt hattempt)).2
  split at done
  · cases done
    exact ⟨.idle d, rfl⟩
  rename_i live hlive
  split at done
  · cases done
    exact ⟨.idle d, rfl⟩
  cases done
  obtain ⟨a, ha, hpush⟩ := bind_eq_some_iff.mp (filter_eq_some_iff.mp hlive).1
  have marked : d.record.attempt.map (fun a => { a with push := some { live with queued := true } })
      = some { a with push := some { live with queued := true } } := congrArg (Option.map _) ha
  exact ⟨Turned.write (.refl d) (.queued alone ha alone marked hpush rfl id (Nat.le_refl _)) rfl,
    (d.persist_slots _).2.2⟩

end Results

/-! ### Commands -/

section Commands
variable {book : Book}

/-- What a command's interrupt leaves: no session was held, or it is back in its slot. -/
inductive Interrupted (r : RunRecord) (t : Transition) : Prop where
  | quiet (quiet : Quiet r t) (alone : t.record.held = none)
  | restored (held : HeldSession) (restored : Restored r held t)

namespace Interrupted

section
variable (h : Interrupted r t)
include h

lemma after (calm : t.Calm t') : Interrupted r t' := by
  cases h with
  | quiet quiet alone => exact .quiet (quiet.after calm) (calm.record.alone alone)
  | restored held restored => exact .restored held (restored.after calm)

lemma alone : t.record.held = none := by
  cases h with
  | quiet quiet alone => exact alone
  | restored held restored => exact restored.alone

lemma next : r.nextSeq ≤ t.record.nextSeq := by
  cases h with
  | quiet quiet alone => exact quiet.record.next
  | restored held restored => exact restored.next

lemma rows : actions t.entries = [] := by
  cases h with
  | quiet quiet alone => exact quiet.rows
  | restored held restored => exact restored.rows

lemma stage (same : Extends js d) {ending ask} (staged : t.stageAgentEnd ending ask = some t')
    (route : ending.route = none) :
    Judged i shown r js (d.persist t') ∧ ∀ me,
      Judged i shown r js (d.persist (t'.editAttempt fun a => { a with host := me })) := by
  cases h with
  | quiet quiet alone =>
    have ended := quiet.after (stageAgentEnd_calm staged)
    exact ⟨ended.write same, fun me => (ended.after (t'.own_calm me)).write same⟩
  | restored held restored =>
    refine restored.stage same staged fun some => ?_
    rw [route] at some
    cases some

lemma dropped (same : Extends js d) (none : t.record.attempt = none) :
    Judged i shown r js (d.persist t) :=
  Turned.write same (.dropped h.alone none h.next) h.rows

end

end Interrupted

lemma interruptHeld_interrupted (h : Quiet r t) {reason} (done : interruptHeld t reason = some t') :
    Interrupted r t' := by
  simp only [interruptHeld] at done
  split at done
  · obtain ⟨held, restored⟩ := interrupt_restored h done
    exact .restored held restored
  · next none =>
    cases done
    exact .quiet h (not_isSome_iff_eq_none.mp none)

variable {next : Next}

lemma cancel_judged {reason} (done : cancel spec d me i reason = some (d', next)) :
    Judged i shown d.record d.journal d' := by
  simp only [cancel] at done
  split at done
  · cases done
    exact .idle d
  obtain ⟨u, interrupted, done⟩ := bind_eq_some_iff.mp done
  have closed := (interruptHeld_interrupted (Quiet.start d i.now) interrupted).after u.closeWait_calm
  split at done
  · next attempt hattempt =>
    simp only [cancelAgent] at done
    split at done
    · cases done
      exact .idle d
    simp only [bind, bind_eq_some_iff] at done
    obtain ⟨v, rowed, x, staged, done⟩ := done
    have calm : u.closeWait.Calm v := by
      simp only [interruptEnding] at rowed
      split at rowed
      · exact turnEnd_calm (by decide) (by decide) rowed
      · cases rowed
        exact .refl _
    have ended : Judged i shown d.record d.journal (d.persist x) ∧ ∀ me, Judged i shown d.record
        d.journal (d.persist (x.editAttempt fun a => { a with host := me })) :=
      (closed.after calm).stage (.refl d) staged rfl
    split at done
    · cases done
      exact ended.1
    · cases done
      exact ended.2 me
  · obtain ⟨⟨v, settled⟩, finished, e⟩ := bind_eq_some_iff.mp done
    cases e
    have cleared := closed.after (u.closeWait.edit_calm (f := fun r => { r with restart := none }) rfl rfl
      (.inl rfl))
    have none := finishScript_empty cleared.alone finished
    have ended := cleared.after (finishScript_calm finished)
    split
    · exact ended.dropped (.refl d) none
    · exact (ended.after (v.cancelRun_calm reason)).dropped (.refl d) none

/-- An attempt that a restart takes back to stop once more; it has nothing to submit. -/
structure TakenBack (r : RunRecord) (t : Transition) : Prop where
  attempt : ∃ a, t.record.attempt = some a ∧ a.push = none
  alone : t.record.held = none
  next : r.nextSeq ≤ t.record.nextSeq
  rows : actions t.entries = []

lemma requestRestart_interrupted (h : Interrupted r t) (step : Step) (me : Host)
    (resume : Option (Nat × AgentSessionId)) :
    Interrupted r (t.requestRestart step me resume) ∨
    TakenBack r (t.requestRestart step me resume) := by
  simp only [Transition.requestRestart]
  split
  · next b hb =>
    split at hb
    · simp only [revived, bind, bind_eq_some_iff] at hb
      obtain ⟨p, -, runId, -, handle, -, hb⟩ := hb
      split at hb
      · cases hb
        exact .inr ⟨⟨_, rfl, rfl⟩, h.alone, h.next, h.rows⟩
      · cases hb
    · cases hb
  · exact .inl (h.after (t.edit_calm rfl rfl (.inl rfl)))

lemma TakenBack.stage (h : TakenBack r t) (same : Extends js d) {ending ask}
    (staged : t.stageAgentEnd ending ask = some t') (route : ending.route = none) :
    Judged i shown r js (d.persist t') ∧ ∀ me,
      Judged i shown r js (d.persist (t'.editAttempt fun a => { a with host := me })) := by
  obtain ⟨b, hb, push⟩ := h.attempt
  obtain ⟨a, p, ha, -, -, -, e⟩ := stageAgentEnd_spec staged
  cases hb.symm.trans ha
  subst e
  exact ⟨Turned.write same (.revived h.alone rfl ⟨_, rfl, route⟩ push h.next) h.rows,
    fun me => Turned.write same (.revived h.alone rfl ⟨_, rfl, route⟩ push h.next) h.rows⟩

/-- A restart stages the end of its attempt, or starts its step over. -/
lemma restart_judged {resume} (done : restart spec d me i resume = some (d', next)) :
    Judged i shown d.record d.journal d' := by
  simp only [restart, bind, bind_eq_some_iff] at done
  obtain ⟨step, -, done⟩ := done
  split at done
  · cases done
  simp only [bind_eq_some_iff] at done
  obtain ⟨u, interrupted, done⟩ := done
  have found := interruptHeld_interrupted (Quiet.start d i.now) interrupted
  have requested := requestRestart_interrupted found step me resume
  split at done
  · next attempt hattempt =>
    obtain ⟨v, staged, done⟩ := bind_eq_some_iff.mp done
    have ended : Judged i shown d.record d.journal (d.persist v) ∧ ∀ me, Judged i shown d.record
        d.journal (d.persist (v.editAttempt fun a => { a with host := me })) := by
      rcases requested with requested | taken
      · exact requested.stage (.refl d) staged rfl
      · exact taken.stage (.refl d) staged rfl
    split at done
    · cases done
      exact ended.1
    · cases done
      exact ended.2 me
  · next none =>
    cases done
    rcases requested with requested | taken
    · have restarted := restartStep_calm (u.requestRestart step me resume)
        ((d.record.sessionAttempt.map LiveAttempt.node).getD d.record.node) resume.isSome
      exact (requested.after restarted).dropped (.refl d) (restarted.record.empty requested.alone none)
    · obtain ⟨a, ha, -⟩ := taken.attempt
      cases none.symm.trans ha

lemma unpark_calm (t : Transition) (at_ : Option String) : t.Calm (t.unpark at_) := by
  simp only [Transition.unpark]
  split
  · have reset : t.Calm (t.resetVisits t.record.node "cap") :=
      (t.edit_calm rfl rfl (.inl rfl)).trans (push_calm _ rfl)
    exact (reset.trans (closeWait_calm _)).trans (edit_calm _ rfl rfl (.inl rfl))
  · exact t.closeWait_calm.trans (edit_calm _ rfl rfl (.inl rfl))

lemma resume_judged {at_ extend} (done : resume spec d i at_ extend = some d') :
    Judged i shown d.record d.journal d' := by
  simp only [resume] at done
  split at done
  · cases done
  cases done
  have books := grants_books extend d.record
  simp only [RunRecord.books, Prod.mk.injEq] at books
  obtain ⟨next, -, -, attempt, held, -, -⟩ := books
  have granted := (Quiet.start d i.now).after (edit_calm _
    (f := fun r => extend.foldl grant r) next held (.inl attempt))
  refine Quiet.judges (Quiet.after ?_ (push_calm _ rfl))
  split
  · exact granted.after (unpark_calm _ at_)
  · exact granted

lemma wake_judged {signal subscribed} :
    Judged i shown d.record d.journal (wake spec d i signal subscribed) := by
  simp only [wake]
  split
  · refine Quiet.judges (Quiet.after ⟨⟨Nat.le_refl _, fun k hk => ?_, fun hn => ?_⟩, rfl⟩ (push_calm _ rfl))
    · obtain ⟨h, hh, e⟩ := map_eq_some_iff.mp hk
      exact ⟨h, hh, e ▸ rfl⟩
    · refine ⟨map_eq_none_iff.mp hn, fun a ha => ?_⟩
      obtain ⟨b, hb, e⟩ := map_eq_some_iff.mp ha
      exact ⟨b, hb, e ▸ rfl, fun ended => e ▸ ended⟩
  · exact .idle d

lemma reassignTask_judged {task} : Judged i shown d.record d.journal (reassignTask d task) :=
  .calm (.refl d) (.of_slot rfl rfl (.inl rfl))

end Commands

end Rimz.Workflow
