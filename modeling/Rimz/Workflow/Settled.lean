import Rimz.Workflow.Processes
import Rimz.Workflow.Routing

/-!
# Attempts are settled once

A live attempt is journaled when it leaves the record and never again: the record holds each
sequence number in one place, the attempt slot or the held session, and the journal's rows are of
numbers that have left both. The one number that comes back is that of a settled agent attempt which
a continued restart stops again; the restart then names it as settled, and no other edit touches a
restart while the attempt is live. The invariant also knows which numbers are agents', for a check's
evaluation and a step's attempt are journaled by different edits.
-/

namespace Rimz.Workflow
open Std

/-- The attempt that a continued restart has settled before. -/
def RunRecord.settled (r : RunRecord) : Option Nat := r.restart.bind Restart.settled

/-- The numbers handed out so far are those below `next`; some are agents'. -/
structure Book where
  next : Nat
  agent : Nat → Prop

/-- One more number, for an agent or not. -/
def Book.hand (book : Book) (isAgent : Prop) : Book where
  next := book.next + 1
  agent s := if s = book.next then isAgent else book.agent s

/-- A live attempt of a record: its number is handed out, it has no evaluation row, and a row of its
own only if a continued restart stops it again. -/
structure LiveSound (spec : WorkflowSpec) (book : Book) (r : RunRecord) (js : List JournalEntry)
    (a : LiveAttempt) : Prop where
  handed : a.seq < book.next
  node : a.kind = attemptKind spec a.node
  here : r.held = none → a.node = r.node
  kind : a.kind = .agent ↔ book.agent a.seq
  unevaluated : a.seq ∉ evaluationSeqs js
  settled : a.seq ∈ attemptSeqs js → r.settled = some a.seq ∧ book.agent a.seq
  run : a.run.isSome = true → book.agent a.seq
  staged : a.ending.isSome = true → ∃ p, r.prevAttempt = some p ∧ p.seq = a.seq

/-- A held session of a record: an agent's, under a check. -/
structure HeldSound (spec : WorkflowSpec) (book : Book) (r : RunRecord)
    (js : List JournalEntry) (h : HeldSession) : Prop where
  handed : h.attempt.seq < book.next
  step : attemptKind spec h.attempt.node = .agent
  kind : h.attempt.kind = .agent
  owner : book.agent h.attempt.seq
  open_ : h.attempt.ending = none
  settled : h.attempt.seq ∈ attemptSeqs js → r.settled = some h.attempt.seq
  node : spec.steps.contains r.node = false
  alone : ∀ a, r.attempt = some a → ¬book.agent a.seq

/-- The invariant of a record and its journal, with the numbers handed out. -/
structure Sound (spec : WorkflowSpec) (book : Book) (r : RunRecord)
    (js : List JournalEntry) : Prop where
  nextSeq : r.nextSeq = book.next
  attempts : (attemptSeqs js).Nodup
  evaluations : (evaluationSeqs js).Nodup
  attempted : ∀ s ∈ attemptSeqs js, s < book.next
  evaluated : ∀ s ∈ evaluationSeqs js, s < book.next ∧ ¬book.agent s
  live : ∀ a, r.attempt = some a → LiveSound spec book r js a
  held : ∀ h, r.held = some h → HeldSound spec book r js h
  previous : ∀ p, r.prevAttempt = some p → p.seq < book.next ∧
    (p.runId.isSome = true → book.agent p.seq)
  restarted : ∀ s, r.settled = some s → s < book.next
  idle : r.state ≠ .active → r.attempt = none ∧ r.held = none

section Record
variable {spec : WorkflowSpec} {book : Book} {r q : RunRecord} {js js' : List JournalEntry}
  {a : LiveAttempt}

/-- The invariant survives an edit that keeps the books and at most drops the attempt or the
session. -/
lemma Sound.shrink (h : Sound spec book r js) (seqs : SameSeqs js js')
    (nextSeq : q.nextSeq = r.nextSeq) (restart : q.restart = r.restart)
    (previous : q.prevAttempt = r.prevAttempt)
    (attempt : ∀ a, q.attempt = some a →
      r.attempt = some a ∧ (q.held = none → r.held = none ∧ q.node = r.node))
    (held : ∀ k, q.held = some k →
      q.node = r.node ∧ ∃ s, r.held = some s ∧ k.attempt = s.attempt)
    (idle : q.state ≠ .active → q.attempt = none ∧ q.held = none) :
    Sound spec book q js' where
  nextSeq := nextSeq.trans h.nextSeq
  attempts := seqs.attempts ▸ h.attempts
  evaluations := seqs.evaluations ▸ h.evaluations
  attempted s hs := h.attempted s (seqs.attempts ▸ hs)
  evaluated s hs := h.evaluated s (seqs.evaluations ▸ hs)
  live a ha := by
    obtain ⟨same, here⟩ := attempt a ha
    have live := h.live a same
    refine { live with
      here := fun hn => (here hn).2 ▸ live.here (here hn).1
      unevaluated := seqs.evaluations ▸ live.unevaluated
      settled := fun hs => ?_
      staged := previous ▸ live.staged }
    rw [RunRecord.settled, restart]
    exact live.settled (seqs.attempts ▸ hs)
  held k hk := by
    obtain ⟨node, s, hs, e⟩ := held k hk
    have session := h.held s hs
    refine ⟨e ▸ session.handed, e ▸ session.step, e ▸ session.kind, e ▸ session.owner,
      e ▸ session.open_, ?_, node ▸ session.node, fun a ha => session.alone a (attempt a ha).1⟩
    rw [e, seqs.attempts, RunRecord.settled, restart]
    exact session.settled
  previous p hp := h.previous p (previous ▸ hp)
  restarted s hs := h.restarted s (by rwa [RunRecord.settled, restart] at hs)
  idle := idle

/-- What the invariant reads of a record. -/
def RunRecord.books (r : RunRecord) :=
  (r.nextSeq, r.restart, r.prevAttempt, r.attempt, r.held, r.node, r.state)

section

variable (h : Sound spec book r js)
include h

lemma Sound.keep (seqs : SameSeqs js js') (books : q.books = r.books) : Sound spec book q js' := by
  simp only [RunRecord.books, Prod.mk.injEq] at books
  obtain ⟨nextSeq, restart, previous, attempt, held, node, state⟩ := books
  exact h.shrink seqs nextSeq restart previous
    (fun _ ha => ⟨attempt ▸ ha, fun hn => ⟨held ▸ hn, node⟩⟩)
    (fun s hs => ⟨node, s, held ▸ hs, rfl⟩) fun hs => by
      rw [attempt, held]
      exact h.idle (state ▸ hs)

/-- With neither an attempt nor a session the rest of a record does not matter. -/
lemma Sound.bare (seqs : SameSeqs js js')
    (nextSeq : q.nextSeq = r.nextSeq) (restart : q.restart = r.restart ∨ q.restart = none)
    (previous : q.prevAttempt = r.prevAttempt) (attempt : q.attempt = none)
    (held : q.held = none) : Sound spec book q js' where
  nextSeq := nextSeq.trans h.nextSeq
  attempts := seqs.attempts ▸ h.attempts
  evaluations := seqs.evaluations ▸ h.evaluations
  attempted s hs := h.attempted s (seqs.attempts ▸ hs)
  evaluated s hs := h.evaluated s (seqs.evaluations ▸ hs)
  live a ha := by cases attempt.symm.trans ha
  held s hs := by cases held.symm.trans hs
  previous p hp := h.previous p (previous ▸ hp)
  restarted s hs := by
    rcases restart with restart | restart
    · rw [RunRecord.settled, restart] at hs
      exact h.restarted s hs
    · rw [RunRecord.settled, restart] at hs
      cases hs
  idle _ := ⟨attempt, held⟩

/-- The row of a check's evaluation, when its attempt leaves the record. -/
lemma Sound.evaluate (ha : r.attempt = some a) (check : ¬book.agent a.seq) {e}
    (he : e.evaluationSeq = some a.seq) (hn : e.attemptSeq = none) :
    Sound spec book { r with attempt := none } (js ++ [e]) := by
  have live := h.live a ha
  have rows : evaluationSeqs (js ++ [e]) = evaluationSeqs js ++ [a.seq] := by
    simp [evaluationSeqs, he]
  have same : attemptSeqs (js ++ [e]) = attemptSeqs js := by simp [attemptSeqs, hn]
  refine { h with
    attempts := same ▸ h.attempts, evaluations := ?_, attempted := same ▸ h.attempted, evaluated := ?_
    live := fun _ hx => by cases hx
    held := fun s hs => ?_, idle := fun hs => ⟨rfl, (h.idle hs).2⟩ }
  · rw [rows, ← List.concat_eq_append]
    exact .concat live.unevaluated h.evaluations
  · intro s hs
    rw [rows, mem_append, mem_singleton] at hs
    rcases hs with hs | hs
    · exact h.evaluated s hs
    · exact hs ▸ ⟨live.handed, check⟩
  · exact { h.held s hs with settled := same ▸ (h.held s hs).settled, alone := fun _ hx => by cases hx }

/-- The row of a step's attempt, when it leaves the record and was not settled before. -/
lemma Sound.settle (ha : r.attempt = some a) (hheld : r.held = none)
    (first : r.settled ≠ some a.seq) {e} (he : e.attemptSeq = some a.seq)
    (hn : e.evaluationSeq = none) : Sound spec book { r with attempt := none } (js ++ [e]) := by
  have live := h.live a ha
  have rows : attemptSeqs (js ++ [e]) = attemptSeqs js ++ [a.seq] := by simp [attemptSeqs, he]
  have same : evaluationSeqs (js ++ [e]) = evaluationSeqs js := by simp [evaluationSeqs, hn]
  refine { h with
    attempts := ?_, evaluations := same ▸ h.evaluations, attempted := ?_, evaluated := same ▸ h.evaluated
    live := fun _ hx => by cases hx
    held := fun s hs => ?_, idle := fun _ => ⟨rfl, hheld⟩ }
  · rw [rows, ← List.concat_eq_append]
    exact .concat (fun hs => first (live.settled hs).1) h.attempts
  · intro s hs
    rw [rows, mem_append, mem_singleton] at hs
    rcases hs with hs | hs
    · exact h.attempted s hs
    · exact hs ▸ live.handed
  · cases hheld.symm.trans hs

/-- An edit of the live attempt, and of the evidence of its end, that keeps its number and kind. -/
lemma Sound.replace (ha : r.attempt = some a) {b} (seq : b.seq = a.seq)
    (node : b.node = a.node) (kind : b.kind = a.kind)
    (run : b.run.isSome = true → book.agent a.seq) {p}
    (previous : ∀ q, p = some q → q.seq < book.next ∧ (q.runId.isSome = true → book.agent q.seq))
    (staged : b.ending.isSome = true → ∃ q, p = some q ∧ q.seq = a.seq) :
    Sound spec book { r with attempt := some b, prevAttempt := p } js := by
  have live := h.live a ha
  refine { h with
    live := fun x hx => ?_, held := fun s hs => { h.held s hs with alone := fun x hx => ?_ }, previous
    idle := fun hs => by cases (h.idle hs).1.symm.trans ha }
  · cases hx
    exact ⟨seq ▸ live.handed, kind.trans (node ▸ live.node), fun hn => node.trans (live.here hn),
      by rw [kind, seq]; exact live.kind, seq ▸ live.unevaluated, seq ▸ live.settled,
      fun hr => seq ▸ run hr, seq ▸ staged⟩
  · cases hx
    exact seq ▸ (h.held s hs).alone a ha

lemma Sound.editAttempt (ha : r.attempt = some a) {b} (seq : b.seq = a.seq)
    (node : b.node = a.node) (kind : b.kind = a.kind) (ending : b.ending = a.ending)
    (run : b.run.isSome = true → book.agent a.seq) :
    Sound spec book { r with attempt := some b } js :=
  h.replace ha seq node kind run h.previous fun hs => (h.live a ha).staged (ending ▸ hs)

lemma Sound.editHeld {s k} (hs : r.held = some s)
    (seq : k.attempt.seq = s.attempt.seq) (node : k.attempt.node = s.attempt.node)
    (kind : k.attempt.kind = s.attempt.kind) (ending : k.attempt.ending = s.attempt.ending) :
    Sound spec book { r with held := some k } js := by
  have session := h.held s hs
  refine { h with
    live := fun x hx => { h.live x hx with here := nofun }, held := fun x hx => ?_
    idle := fun hi => by cases (h.idle hi).2.symm.trans hs }
  cases hx
  exact ⟨seq ▸ session.handed, node ▸ session.step, kind.trans session.kind, seq ▸ session.owner,
    ending.trans session.open_, seq ▸ session.settled, session.node, session.alone⟩

/-- An edit of every attempt of a record that keeps numbers, kinds and runs. -/
lemma Sound.mapAttempts {f : LiveAttempt → LiveAttempt}
    (same : ∀ a, (f a).seq = a.seq ∧ (f a).node = a.node ∧ (f a).kind = a.kind
      ∧ (f a).ending = a.ending ∧ (f a).run = a.run) :
    Sound spec book
      { r with attempt := r.attempt.map f,
               held := r.held.map fun s => { s with attempt := f s.attempt } } js := by
  have live : Sound spec book { r with attempt := r.attempt.map f } js := by
    cases ha : r.attempt with
    | none => exact h.keep (.refl _) (by simp only [RunRecord.books, map_none, ha])
    | some a =>
      obtain ⟨seq, node, kind, ending, run⟩ := same a
      exact h.editAttempt ha seq node kind ending fun hr => (h.live a ha).run (run ▸ hr)
  cases hs : r.held with
  | none => exact live.keep (.refl _) (by simp only [RunRecord.books, map_none, hs])
  | some s =>
    obtain ⟨seq, node, kind, ending, -⟩ := same s.attempt
    exact live.editHeld hs seq node kind ending

lemma Sound.moveHeld (held : r.held.isSome = true) {node}
    (check : spec.steps.contains node = false) : Sound spec book { r with node } js :=
  { h with
    live := fun x hx => { h.live x hx with here := fun hn => by rw [hn] at held; cases held }
    held := fun s hs => { h.held s hs with node := check } }

lemma Sound.restore {s} (hs : r.held = some s) :
    Sound spec book { r with held := none, attempt := some s.attempt, node := s.attempt.node } js := by
  have session := h.held s hs
  refine { h with
    live := fun x hx => ?_, held := fun _ hx => (by cases hx)
    idle := fun hi => by cases (h.idle hi).2.symm.trans hs }
  cases hx
  exact ⟨session.handed, session.kind.trans session.step.symm, fun _ => rfl,
    iff_of_true session.kind session.owner, fun he => (h.evaluated _ he).2 session.owner,
    fun ha => ⟨session.settled ha, session.owner⟩, fun _ => session.owner, fun hs => by
      rw [session.open_] at hs
      cases hs⟩

/-- An ending is staged on the live attempt, with its evidence. -/
lemma Sound.stage (ha : r.attempt = some a) {b} (seq : b.seq = a.seq)
    (node : b.node = a.node) (kind : b.kind = a.kind) (run : b.run = a.run) {p}
    (evidence : p.seq = a.seq)
    (runId : p.runId.isSome = true → book.agent a.seq) :
    Sound spec book { r with attempt := some b, prevAttempt := some p } js := by
  have live := h.live a ha
  refine h.replace ha seq node kind (fun hr => live.run (run ▸ hr)) (fun q hq => ?_) fun _ =>
    ⟨p, rfl, evidence⟩
  cases hq
  exact ⟨evidence ▸ live.handed, fun hr => evidence ▸ runId hr⟩

lemma Sound.evidence (ha : r.attempt = none) {p} (seq : p.seq < book.next)
    (run : p.runId.isSome = true → book.agent p.seq) :
    Sound spec book { r with prevAttempt := some p } js := by
  refine { h with
    live := fun x hx => by cases ha.symm.trans hx
    held := fun s hs => { h.held s hs with }, previous := fun q hq => ?_ }
  cases hq
  exact ⟨seq, run⟩

lemma Sound.setRestart (held : r.held = none)
    (fresh : ∀ a, r.attempt = some a → a.seq ∉ attemptSeqs js) (restart : Option Restart)
    (settled : ∀ s, restart.bind Restart.settled = some s → s < book.next) :
    Sound spec book { r with restart } js :=
  { h with
    live := fun x hx => { h.live x hx with settled := fun hs => absurd hs (fresh x hx) }
    held := fun s hs => by cases held.symm.trans hs
    restarted := settled }

/-- A parked run takes a settled agent attempt back, to stop it again; its restart says so. -/
lemma Sound.revive (held : r.held = none) {p} (hp : r.prevAttempt = some p)
    (run : p.runId.isSome = true) {b} (seq : b.seq = p.seq) (node : b.node = r.node)
    (kind : b.kind = .agent)
    (step : attemptKind spec r.node = .agent) (ending : b.ending = none) {restart}
    (settled : restart.bind Restart.settled = some b.seq) {park} :
    Sound spec book { r with restart, attempt := some b, state := .active, park } js := by
  obtain ⟨handed, agent⟩ := h.previous p hp
  have owner : book.agent b.seq := seq ▸ agent run
  refine { h with
    live := fun x hx => ?_, held := fun s hs => by cases held.symm.trans hs
    restarted := fun s hs => ?_, idle := fun hi => absurd rfl hi }
  · cases hx
    exact ⟨seq ▸ handed, kind.trans (node ▸ step.symm), fun _ => node, iff_of_true kind owner,
      fun he => (h.evaluated _ he).2 owner, fun _ => ⟨settled, owner⟩, fun _ => owner, fun hs => by
        rw [ending] at hs
        cases hs⟩
  · cases settled.symm.trans hs
    exact seq ▸ handed

end

lemma Book.hand_agent {s} (h : s < book.next) {isAgent} :
    (book.hand isAgent).agent s ↔ book.agent s := by
  simp only [hand, if_neg (Nat.ne_of_lt h)]

lemma Book.hand_next (book : Book) (isAgent : Prop) :
    (book.hand isAgent).agent book.next ↔ isAgent := by
  simp only [hand, if_pos]

/-- A fresh attempt takes the next number. Under a held session it is no agent's. -/
lemma Sound.hand (h : Sound spec book r js) (active : r.state = .active) {a : LiveAttempt}
    (seq : a.seq = book.next) (node : a.kind = attemptKind spec a.node) (here : a.node = r.node)
    (run : a.run = none) (ending : a.ending = none)
    (held : r.held.isSome = true → a.kind ≠ .agent) :
    Sound spec (book.hand (a.kind = .agent))
      { r with nextSeq := r.nextSeq + 1, attempt := some a,
               held := r.held.map fun h => { h with attempt := { h.attempt with woken := false } } }
      js := by
  have below : ∀ {s}, s < book.next → s < (book.hand (a.kind = .agent)).next := fun h =>
    Nat.lt_succ_of_lt h
  refine ⟨?_, h.attempts, h.evaluations, fun s hs => below (h.attempted s hs), fun s hs => ?_,
    fun x hx => ?_, fun s hs => ?_, fun p hp => ?_, fun s hs => below (h.restarted s hs),
    fun hi => ?_⟩
  · change r.nextSeq + 1 = book.next + 1
    rw [h.nextSeq]
  · have rows := h.evaluated s hs
    exact ⟨below rows.1, fun ha => rows.2 ((Book.hand_agent rows.1).mp ha)⟩
  · cases hx
    have fresh : a.seq ∉ attemptSeqs js := fun hs =>
      absurd (h.attempted _ hs) (seq ▸ Nat.lt_irrefl _)
    refine ⟨?_, node, fun _ => here, ?_, fun hs => ?_, fun hs => absurd hs fresh, fun hr => ?_, fun hs => ?_⟩
    · rw [seq]
      exact Nat.lt_succ_self _
    · rw [seq]
      exact (book.hand_next _).symm
    · exact absurd (h.evaluated _ hs).1 (seq ▸ Nat.lt_irrefl _)
    · rw [run] at hr
      cases hr
    · rw [ending] at hs
      cases hs
  · rw [map_eq_some_iff] at hs
    obtain ⟨s, hs, e⟩ := hs
    subst e
    have session := h.held s hs
    refine ⟨below session.handed, session.step, session.kind, (Book.hand_agent session.handed).mpr session.owner,
      session.open_, session.settled, session.node, fun x hx => ?_⟩
    cases hx
    rw [seq, Book.hand_next]
    exact held (hs ▸ rfl)
  · have previous := h.previous p hp
    exact ⟨below previous.1, fun hr => (Book.hand_agent previous.1).mpr (previous.2 hr)⟩
  · exact absurd active hi

end Record

section Edits
variable {spec : WorkflowSpec} {book : Book} {js : List JournalEntry} {t t' : Transition}

/-- The invariant of a transition over the journal it will be appended to. -/
abbrev Transition.Sound (spec : WorkflowSpec) (book : Book) (js : List JournalEntry)
    (t : Transition) : Prop := Workflow.Sound spec book t.record (js ++ t.entries)

lemma SameSeqs.prepend {es fs} (h : SameSeqs es fs) (js : List JournalEntry) :
    SameSeqs (js ++ es) (js ++ fs) :=
  ⟨by simp [h.attempts], by simp [h.evaluations]⟩

namespace Transition

section
variable (h : t.Sound spec book js)
include h

lemma Sound.waited (w : Waited t t') : t'.Sound spec book js := by
  obtain ⟨wait, recheckAt, e⟩ := w.record
  have seqs := w.seqs.prepend js
  rw [Transition.Sound, e]
  exact h.keep seqs rfl

lemma Sound.row {e} (ha : e.attemptSeq = none) (he : e.evaluationSeq = none) :
    { t with entries := t.entries ++ [e] }.Sound spec book js :=
  h.keep (SameSeqs.prepend (.snoc ha he) js) rfl

lemma Sound.clock (now : Timestamp) : { t with now }.Sound spec book js := h

lemma Sound.route {target object reason} (routed : t.route spec target object reason = some t') :
    t'.Sound spec book js := by
  rcases route_spec routed with ⟨-, e⟩ | ⟨held, hheld, e⟩ | ⟨hheld, moved⟩
  · exact e ▸ h
  · rw [e]
    refine h.shrink (.refl _) rfl rfl rfl (fun _ ha => by cases ha) (fun s hs => ?_) fun hi => ?_
    · cases hs
      exact ⟨rfl, held, hheld, rfl⟩
    · cases (h.idle hi).2.symm.trans hheld
  obtain ⟨state, node, enteredAt, park, terminalAt, wait, recheckAt, retry, context, key, input,
    e⟩ := moved.record
  have seqs := moved.seqs.prepend js
  rw [Transition.Sound, e]
  exact h.shrink seqs rfl rfl rfl (fun _ ha => by cases ha)
    (fun s hs => by cases hheld.symm.trans hs) fun _ => ⟨rfl, hheld⟩

lemma Sound.engineRoute {outcome target object reason}
    (routed : t.engineRoute spec outcome object target reason = some t') : t'.Sound spec book js :=
  Sound.route (h.row rfl rfl) routed

lemma Sound.capRoute {bound visits max v}
    (routed : t.capRoute spec bound visits max = some (t', v)) :
    t'.Sound spec book js := by
  obtain ⟨target, -, e⟩ := bind_eq_some_iff.mp routed
  cases e
  exact h.row rfl rfl

lemma Sound.turnEnd {attempt action verdict reason}
    (ended : t.turnEnd attempt action verdict reason = some t') : t'.Sound spec book js := by
  obtain ⟨turn, -, e⟩ := bind_eq_some_iff.mp ended
  cases e
  exact h.row rfl rfl

end

lemma resetStep_record (t : Transition) (seq : Nat) (outcome step : String) (definition : Step) :
    (∃ visits, (t.resetStep seq outcome step definition).record = { t.record with visits })
    ∧ SameSeqs t.entries (t.resetStep seq outcome step definition).entries := by
  simp only [resetStep]
  cases t.record.visits[step]? with
  | none => exact ⟨⟨_, rfl⟩, .refl _⟩
  | some visits =>
    dsimp only
    split
    · exact ⟨⟨_, rfl⟩, .snoc rfl rfl⟩
    · exact ⟨⟨_, rfl⟩, .refl _⟩

lemma Sound.resetStep (h : t.Sound spec book js) (seq : Nat) (outcome step : String)
    (definition : Step) : (t.resetStep seq outcome step definition).Sound spec book js := by
  obtain ⟨⟨visits, e⟩, seqs⟩ := resetStep_record t seq outcome step definition
  have seqs := seqs.prepend js
  rw [Transition.Sound, e]
  exact h.keep seqs rfl

lemma Sound.resetOutcomes (h : t.Sound spec book js) (seq : Nat) (outcome : String) :
    (t.resetOutcomes spec seq outcome).Sound spec book js := by
  simp only [Transition.resetOutcomes]
  generalize spec.steps.toList = steps
  induction steps generalizing t with
  | nil => exact h
  | cons step steps ih => exact ih (h.resetStep seq outcome step.1 step.2)

lemma current_attempt {seq} (h : t.current seq = true) :
    t.record.state = .active ∧ ∃ a, t.record.attempt = some a ∧ a.seq = seq := by
  simp only [current, decide_eq_true_eq, any_eq_true] at h
  obtain ⟨active, a, ha, e⟩ := h
  exact ⟨active, a, ha, e⟩

lemma Sound.abandonCheck (h : t.Sound spec book js)
    (check : ∀ a, t.record.attempt = some a → ¬book.agent a.seq)
    (outcome : String) : (t.abandonCheck outcome).Sound spec book js := by
  simp only [Transition.abandonCheck]
  cases ha : t.record.attempt with
  | none => exact h
  | some a =>
    have row := Workflow.Sound.evaluate h ha (check a ha) (e := ⟨some a.seq, t.now, t.record.node,
      .evaluation .engine outcome .null a.startedAt t.now a.retry⟩) rfl rfl
    rw [append_assoc] at row
    exact row

lemma Sound.finishCheck (h : t.Sound spec book js) {seq} (check : ¬book.agent seq) {object}
    (done : t.finishCheck spec seq object = some t') : t'.Sound spec book js := by
  simp only [Transition.finishCheck] at done
  split at done
  · next cur =>
    obtain ⟨-, a, ha, hseq⟩ := current_attempt cur
    simp only [bind, bind_eq_some_iff, ha, Option.some.injEq, exists_eq_left'] at done
    obtain ⟨definition, -, answer, -, done⟩ := done
    have row := Workflow.Sound.evaluate h ha (hseq ▸ check) (e := ⟨some seq, t.now, t.record.node,
      .evaluation (holds spec t definition answer).origin (holds spec t definition answer).outcome
        (holds spec t definition answer).object a.startedAt t.now none⟩) (hseq ▸ rfl) rfl
    rw [append_assoc] at row
    refine Sound.route ?_ done
    -- Neither the resets nor the row of an invalid answer settles anything.
    have reset : ∀ p : Prop, ∀ _ : Decidable p, ∀ u : Transition, u.Sound spec book js →
        (if p then u.resetOutcomes spec seq (holds spec t definition answer).outcome else u).Sound
          spec book js := by
      intro p _ u hu
      split
      · exact hu.resetOutcomes _ _
      · exact hu
    split
    · exact Sound.row (reset _ _ _ row) rfl rfl
    · exact reset _ _ _ row
  · cases done
    exact h

lemma stampRetry_seqs (seq : Nat) (retry : Option Value) (es : List JournalEntry) :
    SameSeqs es (es.map (stampRetry seq retry)) := by
  have same : ∀ e : JournalEntry, (stampRetry seq retry e).attemptSeq = e.attemptSeq
      ∧ (stampRetry seq retry e).evaluationSeq = e.evaluationSeq := by
    intro e
    obtain ⟨s, at_, node, event⟩ := e
    cases event with
    | evaluation =>
      simp only [stampRetry]
      split <;> exact ⟨rfl, rfl⟩
    | _ => exact ⟨rfl, rfl⟩
  constructor
  · simp only [attemptSeqs, List.filterMap_map, comp_def, same]
  · simp only [evaluationSeqs, List.filterMap_map, comp_def, same]

lemma Sound.failJudge (h : t.Sound spec book js) {a} (ha : t.record.attempt = some a)
    (check : ¬book.agent a.seq) {failure reason resetAt retry}
    (done : t.failJudge spec a.seq a failure reason resetAt = some (t', retry)) :
    t'.Sound spec book js := by
  have closed := h.waited t.closeWait_waited
  have live := t.closeWait_attempt.trans ha
  have row := Workflow.Sound.evaluate closed live check (e := ⟨some a.seq, t.closeWait.now,
    t.closeWait.record.node, .evaluation .engine failure (t.engineObject (.object
      [("outcome", .string failure), ("reason", .string reason)])) a.startedAt t.now a.retry⟩) rfl rfl
  rw [append_assoc] at row
  have settled : (((t.closeWait.push (some a.seq) (.evaluation .engine failure (t.engineObject
      (.object [("outcome", .string failure), ("reason", .string reason)])) a.startedAt t.now
      a.retry)).edit fun r => { r with attempt := none, recheckAt := none })).Sound spec book js :=
    row.keep (.refl _) rfl
  simp only [Transition.failJudge] at done
  split at done
  · cases done
    exact settled
  split at done
  · cases done
    exact settled.keep (.refl _) rfl
  split at done
  · cases done
    exact settled.keep (.refl _) rfl
  simp only [map_eq_some_iff, Prod.mk.injEq] at done
  obtain ⟨u, routed, e, -⟩ := done
  subst e
  exact settled.route routed

lemma Sound.finishJudge (h : t.Sound spec book js) {seq} (check : ¬book.agent seq) {result retry}
    (done : t.finishJudge spec seq result = some (t', retry)) : t'.Sound spec book js := by
  simp only [Transition.finishJudge] at done
  split at done
  · next cur =>
    obtain ⟨-, a, ha, hseq⟩ := current_attempt cur
    simp only [bind, bind_eq_some_iff, ha, Option.some.injEq, exists_eq_left'] at done
    obtain ⟨definition, -, done⟩ := done
    split at done
    · -- The answer is taken as a check's; only its row is stamped.
      obtain ⟨u, finished, e⟩ := bind_eq_some_iff.mp done
      cases e
      have sound : u.Sound spec book js := Sound.finishCheck (t := t.edit fun r =>
        { r with checkRetryContext := none }) (h.keep (.refl _) rfl) check finished
      exact sound.keep ((stampRetry_seqs seq a.retry u.entries).prepend js) rfl
    · exact h.failJudge ha (hseq ▸ check) (hseq ▸ done)
  · cases done
    exact h

lemma restoreSession_spec (h : t.restoreSession = some t') :
    ∃ held, t.record.held = some held ∧ t' = t.edit fun r =>
      { r with held := none, node := held.attempt.node, enteredAt := held.enteredAt,
               attempt := some held.attempt, checkRetry := 0, checkRetryContext := none,
               recheckAt := none } := by
  obtain ⟨held, hheld, e⟩ := bind_eq_some_iff.mp h
  exact ⟨held, hheld, (Option.some.inj e).symm⟩

lemma Sound.restoreSession (h : t.Sound spec book js) (restored : t.restoreSession = some t') :
    t'.Sound spec book js := by
  obtain ⟨held, hheld, e⟩ := restoreSession_spec restored
  subst e
  have slot := Workflow.Sound.restore h hheld
  exact slot.shrink (.refl _) rfl rfl rfl (fun _ ha => ⟨ha, fun _ => ⟨rfl, rfl⟩⟩)
    (fun _ hs => by cases hs) slot.idle

lemma stageAgentEnd_spec {ending ask} (h : t.stageAgentEnd ending ask = some t') :
    ∃ a p, t.record.attempt = some a ∧ p.seq = a.seq ∧ p.step = a.node
      ∧ p.runId = a.run.map AttemptRun.runId
      ∧ t' = t.edit fun r => { r with
          attempt := some { a with asking := none, heldSince := none, ending := some ending },
          prevAttempt := some p } := by
  simp only [stageAgentEnd, previousAttempt, bind, bind_eq_some_iff, Transition.edit] at h
  obtain ⟨a, ha, p, ⟨b, hb, visit, -, e⟩, e'⟩ := h
  cases hb
  cases e
  cases e'
  exact ⟨a, _, ha, rfl, rfl, rfl, rfl⟩

section
variable (h : t.Sound spec book js)
include h

lemma Sound.stageAgentEnd {ending ask} (staged : t.stageAgentEnd ending ask = some t') :
    t'.Sound spec book js := by
  obtain ⟨a, p, ha, seq, -, run, e⟩ := stageAgentEnd_spec staged
  subst e
  refine Workflow.Sound.stage h ha
    (b := { a with asking := none, heldSince := none, ending := some ending }) rfl rfl rfl rfl seq
    fun hr => ?_
  rw [run, isSome_map] at hr
  exact (h.live a ha).run hr

/-- The row of a step's attempt, and the evidence beside it. -/
lemma Sound.journalAttempt {a} (ha : t.record.attempt = some a) (hheld : t.record.held = none) {p}
    (seq : p.seq = a.seq) (run : p.runId.isSome = true → book.agent a.seq) (reason : Option String) :
    ((t.edit fun r => { r with attempt := none, prevAttempt := some p }).journalAttempt a p
      reason).Sound spec book js := by
  have live := h.live a ha
  simp only [Transition.journalAttempt]
  split
  · next first =>
    have row := Workflow.Sound.settle h ha hheld first (e := ⟨some a.seq, t.now, t.record.node,
      .attempt p.outcome p.visit p.key p.routedBy p.startedAt t.now p.handle p.runId p.asked
        reason⟩) rfl rfl
    rw [append_assoc] at row
    exact Workflow.Sound.evidence row rfl (p := p) (seq ▸ live.handed) fun hr => seq ▸ run hr
  · have bare := Workflow.Sound.bare h (q := { t.record with attempt := none }) (.refl _) rfl
      (.inl rfl) rfl rfl hheld
    exact Workflow.Sound.evidence bare rfl (p := p) (seq ▸ live.handed) fun hr => seq ▸ run hr

lemma Sound.restartStep (attempt : t.record.attempt = none) (held : t.record.held = none)
    (step : String) (continued : Bool) : (t.restartStep step continued).Sound spec book js := by
  have closed := h.waited t.closeWait_waited
  refine Workflow.Sound.bare closed
    (((SameSeqs.snoc rfl rfl).trans (.snoc rfl rfl)).prepend js) rfl (.inl rfl) rfl ?_ ?_
  · exact t.closeWait_attempt.trans attempt
  · exact t.closeWait_held.trans held

lemma Sound.cancelRun (attempt : t.record.attempt = none) (held : t.record.held = none)
    (reason : Option String) : (t.cancelRun reason).Sound spec book js :=
  Workflow.Sound.bare h (((SameSeqs.snoc rfl rfl).trans (.snoc rfl rfl)).prepend js) rfl
    (.inl rfl) rfl attempt held

end

lemma closeTurn_spec {attempt verdict} (h : t.closeTurn attempt verdict = some t') :
    t'.record = t.record ∧ t'.now = t.now ∧ SameSeqs t.entries t'.entries := by
  simp only [closeTurn] at h
  split at h
  · obtain ⟨turn, -, e⟩ := bind_eq_some_iff.mp h
    cases e
    exact ⟨rfl, rfl, .snoc rfl rfl⟩
  · cases h
    exact ⟨rfl, rfl, .refl _⟩

section

variable (h : t.Sound spec book js)
include h

lemma Sound.settleRoute (attempt : t.record.attempt = none)
    (held : t.record.held = none) {a ending p} (routed : t.settleRoute spec a ending p = some t') :
    t'.Sound spec book js := by
  simp only [Transition.settleRoute] at routed
  split at routed
  · obtain ⟨u, closed, routed⟩ := bind_eq_some_iff.mp routed
    obtain ⟨e, -, seqs⟩ := closeTurn_spec closed
    refine Sound.route ?_ routed
    cases u
    cases e
    exact Workflow.Sound.bare h (seqs.prepend js) rfl (.inl rfl) rfl attempt held
  · cases routed
    exact h.restartStep attempt held _ _
  · cases routed
    have closed := h.waited t.closeWait_waited
    have attempt' := t.closeWait_attempt.trans attempt
    have held' := t.closeWait_held.trans held
    refine Sound.cancelRun ?_ ?_ ?_ _
    · exact Workflow.Sound.bare closed (.refl _) rfl (.inr rfl) rfl attempt' held'
    · exact attempt'
    · exact held'
  · obtain ⟨target, -, routed⟩ := bind_eq_some_iff.mp routed
    refine Sound.engineRoute ?_ routed
    exact Workflow.Sound.bare h (.refl _) rfl (.inl rfl) rfl attempt held
  · split at routed
    · obtain ⟨target, -, routed⟩ := bind_eq_some_iff.mp routed
      exact h.engineRoute routed
    · obtain ⟨target, -, routed⟩ := bind_eq_some_iff.mp routed
      exact h.route routed

lemma Sound.settleStep {a : LiveAttempt}
    (ha : t.record.attempt = some a) (hheld : t.record.held = none) {p : PreviousAttempt}
    (seq : p.seq = a.seq) (run : p.runId.isSome = true → book.agent a.seq) {ending : Ending}
    {reason : Option String}
    (settled : (t.edit fun r => { r with attempt := none, prevAttempt := some p }).settleStep spec a
      ending reason = some t') : t'.Sound spec book js := by
  have row := h.journalAttempt ha hheld seq run reason
  simp only [Transition.settleStep, bind, bind_eq_some_iff] at settled
  obtain ⟨q, hq, routed⟩ := settled
  cases hq
  refine row.settleRoute ?_ ?_ routed
  · simp only [Transition.journalAttempt]
    split <;> rfl
  · simp only [Transition.journalAttempt]
    split
    all_goals exact hheld

lemma Sound.settleAgent (hheld : t.record.held = none) {reason}
    (settled : t.settleAgent spec reason = some t') : t'.Sound spec book js := by
  simp only [Transition.settleAgent, bind, bind_eq_some_iff] at settled
  obtain ⟨a, ha, ending, hending, p, hp, settled⟩ := settled
  have live := h.live a ha
  obtain ⟨q, hq, seq⟩ := live.staged (by rw [hending]; rfl)
  cases hp.symm.trans hq
  refine Sound.settleStep h ha hheld ?_ (fun hr => ?_) settled
  · exact seq
  · rw [isSome_map] at hr
    exact live.run hr

lemma Sound.finishScript {ending reason settled}
    (check : ∀ a, t.record.attempt = some a → ¬book.agent a.seq)
    (done : t.finishScript spec ending reason = some (t', settled)) : t'.Sound spec book js := by
  simp only [Transition.finishScript] at done
  split at done
  · next step =>
    cases ha : t.record.attempt with
    | none =>
      rw [ha] at done
      cases done
      exact h
    | some a =>
      simp only [ha, bind, bind_eq_some_iff] at done
      obtain ⟨p, previous, u, done, e⟩ := done
      cases e
      have hheld : t.record.held = none := by
        rcases hs : t.record.held with _ | s
        · rfl
        · cases step.symm.trans (h.held s hs).node
      simp only [previousAttempt, bind, bind_eq_some_iff, ha, Option.some.injEq,
        exists_eq_left'] at previous
      obtain ⟨visit, -, e⟩ := previous
      refine h.settleStep ha hheld (p := p) (e ▸ rfl) (fun hr => ?_) done
      have run : (a.run.map AttemptRun.runId).isSome = true := by
        rw [← e] at hr
        exact hr
      rw [isSome_map] at run
      exact (h.live a ha).run run
  · cases done
    exact h.abandonCheck check _

lemma Sound.bound {owesExit due} (done : t.bound spec owesExit = some (t', due)) :
    t'.Sound spec book js := by
  simp only [Transition.bound] at done
  split at done
  · cases done
    exact h
  rename_i quiet
  have check : ∀ a, t.record.attempt = some a → ¬book.agent a.seq := by
    intro a ha hag
    refine quiet (.inr (.inl ?_))
    simp [ha, (h.live a ha).kind.mpr hag]
  split at done
  · simp only [bind, bind_eq_some_iff, Prod.exists] at done
    obtain ⟨u, settled, finished, done⟩ := done
    have sound := h.finishScript check finished
    split at done
    · cases done
      exact sound
    simp only [bind_eq_some_iff] at done
    obtain ⟨target, -, v, routed, e⟩ := done
    cases e
    refine Sound.engineRoute ?_ routed
    exact Workflow.Sound.keep sound (.refl _) rfl
  split at done
  · simp only [bind, bind_eq_some_iff, Prod.exists] at done
    obtain ⟨u, settled, finished, done⟩ := done
    have sound := h.finishScript check finished
    split at done
    · cases done
      exact sound
    simp only [bind_eq_some_iff] at done
    obtain ⟨target, -, v, routed, e⟩ := done
    cases e
    exact sound.engineRoute routed
  · cases done
    exact h

end

end Transition

end Edits

end Rimz.Workflow
