import Rimz.Workflow.Engine

/-!
# What a transition can do

One lemma for each edit of a record: the waits, the move of `route`, the engine's own routes. Later
proofs use these and do not open the edits again.
-/

namespace Rimz.Workflow
open Std

/-- The sequence number of a settled step attempt's row. -/
def JournalEntry.attemptSeq (e : JournalEntry) : Option Nat :=
  match e.event with
  | .attempt .. => e.seq
  | _ => none

/-- The sequence number of a check evaluation's row. -/
def JournalEntry.evaluationSeq (e : JournalEntry) : Option Nat :=
  match e.event with
  | .evaluation .. => e.seq
  | _ => none

/-- The sequence numbers of the settled step attempts. -/
def attemptSeqs (es : List JournalEntry) : List Nat := es.filterMap JournalEntry.attemptSeq

/-- The sequence numbers of the check evaluations. -/
def evaluationSeqs (es : List JournalEntry) : List Nat := es.filterMap JournalEntry.evaluationSeq

@[simp] lemma attemptSeqs_append (es fs : List JournalEntry) :
    attemptSeqs (es ++ fs) = attemptSeqs es ++ attemptSeqs fs := filterMap_append

@[simp] lemma evaluationSeqs_append (es fs : List JournalEntry) :
    evaluationSeqs (es ++ fs) = evaluationSeqs es ++ evaluationSeqs fs := filterMap_append

/-- The two lists of journals that settle the same attempts. -/
structure SameSeqs (es fs : List JournalEntry) : Prop where
  attempts : attemptSeqs fs = attemptSeqs es
  evaluations : evaluationSeqs fs = evaluationSeqs es

lemma SameSeqs.refl (es : List JournalEntry) : SameSeqs es es := ⟨rfl, rfl⟩

lemma SameSeqs.trans {es fs gs} (h : SameSeqs es fs) (h' : SameSeqs fs gs) : SameSeqs es gs :=
  ⟨h'.attempts.trans h.attempts, h'.evaluations.trans h.evaluations⟩

lemma SameSeqs.snoc {es e} (ha : e.attemptSeq = none) (he : e.evaluationSeq = none) :
    SameSeqs es (es ++ [e]) :=
  ⟨by simp [attemptSeqs, ha], by simp [evaluationSeqs, he]⟩

namespace Transition
variable {spec : WorkflowSpec} {t t' : Transition}

/-- An edit of nothing but the wait. -/
structure Waited (t t' : Transition) : Prop where
  record : ∃ wait recheckAt, t'.record = { t.record with wait, recheckAt }
  now : t'.now = t.now
  seqs : SameSeqs t.entries t'.entries

lemma Waited.refl (t : Transition) : Waited t t := ⟨⟨_, _, rfl⟩, rfl, .refl _⟩

lemma Waited.trans {t''} (h : Waited t t') (h' : Waited t' t'') : Waited t t'' := by
  obtain ⟨wait, recheckAt, e⟩ := h.record
  obtain ⟨wait', recheckAt', e'⟩ := h'.record
  refine ⟨⟨wait', recheckAt', ?_⟩, h'.now.trans h.now, h.seqs.trans h'.seqs⟩
  rw [e', e]

lemma Waited.edit {f} (h : Waited t t')
    (hf : ∀ r, ∃ wait recheckAt, f r = { r with wait, recheckAt }) :
    Waited t (t'.edit f) := by
  refine h.trans ⟨hf t'.record, rfl, .refl _⟩

lemma closeWait_waited (t : Transition) : Waited t t.closeWait := by
  simp only [closeWait]
  cases h : t.record.wait with
  | none => exact (Waited.refl t).edit fun r => ⟨_, _, rfl⟩
  | some w => exact ⟨⟨_, _, rfl⟩, rfl, .snoc rfl rfl⟩

lemma closeWait_record (t : Transition) :
    t.closeWait.record = { t.record with wait := none, recheckAt := none } := by
  simp only [closeWait]
  cases h : t.record.wait with
  | none =>
    change { t.record with recheckAt := none } = _
    rw [← h]
  | some w => rfl

@[simp] lemma closeWait_attempt (t : Transition) :
    t.closeWait.record.attempt = t.record.attempt := by
  rw [closeWait_record]

@[simp] lemma closeWait_held (t : Transition) : t.closeWait.record.held = t.record.held := by
  rw [closeWait_record]

lemma waited_ite (t : Transition) (p : Prop) [Decidable p] :
    Waited t (if p then t.closeWait else t) := by
  split
  · exact closeWait_waited t
  · exact Waited.refl t

lemma mergeWait_waited {object at_} (h : t.mergeWait spec object at_ = some t') : Waited t t' := by
  obtain ⟨detail, -, h⟩ := bind_eq_some_iff.mp h
  cases h
  refine Waited.edit (waited_ite t _) fun r => ⟨_, _, rfl⟩

lemma stepWait_waited {t} (outcome : String) (detail : Option String) :
    Waited t (t.stepWait outcome detail) := by
  exact Waited.edit (waited_ite t _) fun r => ⟨_, _, rfl⟩

/-- Where a route to a target leaves a record. -/
inductive Lands (r : RunRecord) : String → RunRecord → Prop where
  | wait {r'} : r'.node = r.node → r'.state = r.state → Lands r "@wait" r'
  | done {r'} : r'.node = r.node → r'.state = .done → Lands r "@done" r'
  | failed {r'} : r'.node = r.node → r'.state = .failed → Lands r "@failed" r'
  | user {r'} : r'.node = r.node → r'.state = .parked → Lands r "@user" r'
  | node {target r'} : target ∉ reservedTargets → r'.node = target → r'.state = r.state →
      Lands r target r'

/-- The move of `route` without a held session: it ends the attempt and keeps the run's books. -/
structure Routed (t : Transition) (target : String) (object : Value) (t' : Transition) : Prop where
  record : ∃ state node enteredAt park terminalAt wait recheckAt checkRetry checkRetryContext,
    ∃ key input, t'.record = { t.record with
      state, node, enteredAt, park, terminalAt, wait, recheckAt, checkRetry, checkRetryContext,
      key, input, attempt := none }
  input : (t'.record.input = some object ∧ t'.record.key = object.key)
    ∨ (t'.record.input = t.record.input ∧ t'.record.key = t.record.key)
  lands : Lands t.record target t'.record
  now : t'.now = t.now
  seqs : SameSeqs t.entries t'.entries

lemma moveTo_lands (t : Transition) (target : String) (object : Value) (reason : ParkReason)
    (hw : target ≠ "@wait") : Lands t.record target (t.moveTo target object reason).record := by
  simp only [moveTo]
  by_cases hd : target = "@done"
  · subst hd
    exact .done rfl rfl
  by_cases hf : target = "@failed"
  · subst hf
    exact .failed rfl rfl
  by_cases hu : target = "@user"
  · subst hu
    exact .user rfl rfl
  · simp only [hd, hf, hu, or_self, if_false]
    exact .node (by simp [reservedTargets, hw, hd, hf, hu]) rfl rfl

lemma moveTo_record (t : Transition) (target : String) (object : Value) (reason : ParkReason) :
    (∃ state node enteredAt park terminalAt checkRetry checkRetryContext,
      (t.moveTo target object reason).record = { t.record with
        state, node, enteredAt, park, terminalAt, checkRetry, checkRetryContext })
    ∧ (t.moveTo target object reason).now = t.now
    ∧ SameSeqs t.entries (t.moveTo target object reason).entries := by
  simp only [moveTo]
  split
  · exact ⟨⟨_, _, _, _, _, _, _, rfl⟩, rfl, .snoc rfl rfl⟩
  · split
    · exact ⟨⟨_, _, _, _, _, _, _, rfl⟩, rfl, .snoc rfl rfl⟩
    · exact ⟨⟨_, _, _, _, _, _, _, rfl⟩, rfl, .refl _⟩

/-- The two ways to arrive: a wait at the node, or a move once the wait is closed. -/
lemma arrive_spec {target object reason} (h : t.arrive spec target object reason = some t') :
    (∃ state node enteredAt park terminalAt wait recheckAt checkRetry checkRetryContext,
      t'.record = { t.record with
        state, node, enteredAt, park, terminalAt, wait, recheckAt, checkRetry, checkRetryContext })
    ∧ Lands t.record target t'.record ∧ t'.now = t.now ∧ SameSeqs t.entries t'.entries := by
  simp only [arrive] at h
  by_cases hw : target = "@wait"
  · rw [if_pos hw] at h
    have waited := mergeWait_waited h
    obtain ⟨wait, recheckAt, e⟩ := waited.record
    refine ⟨⟨_, _, _, _, _, _, _, _, _, e⟩, ?_, waited.now, waited.seqs⟩
    subst hw
    exact .wait (by rw [e]) (by rw [e])
  rw [if_neg hw] at h
  cases h
  have closed := closeWait_waited t
  obtain ⟨wait, recheckAt, ec⟩ := closed.record
  obtain ⟨⟨state, node, enteredAt, park, terminalAt, retry, context, e⟩, now, seqs⟩ :=
    moveTo_record t.closeWait target object reason
  have lands := moveTo_lands t.closeWait target object reason hw
  refine ⟨⟨state, node, enteredAt, park, terminalAt, wait, recheckAt, retry, context, ?_⟩, ?_,
    now.trans closed.now, closed.seqs.trans seqs⟩
  · rw [e, ec]
  · rw [ec] at lands
    cases lands with
    | wait => exact absurd rfl hw
    | done hn hs => exact .done hn hs
    | failed hn hs => exact .failed hn hs
    | user hn hs => exact .user hn hs
    | node ht hn hs => exact .node ht hn hs

/-- The verdict that `route` leaves on a held session. -/
def verdictOf (t : Transition) (target : String) (object : Value) (reason : ParkReason) : Verdict :=
  ⟨t.record.node, t.record.enteredAt, some t.now, target, object, reason⟩

/-- Everything `route` can do: nothing to a finished run, a verdict on a held session, or the
move. -/
lemma route_spec {target object reason} (h : t.route spec target object reason = some t') :
    (t.record.state.isTerminal = true ∧ t' = t)
    ∨ (∃ held, t.record.held = some held ∧ t' = t.edit fun r =>
        { r with held := some { held with verdict := some (t.verdictOf target object reason) },
                 attempt := none })
    ∨ (t.record.held = none ∧ Routed t target object t') := by
  simp only [route] at h
  by_cases terminal : t.record.state.isTerminal = true
  · rw [if_pos terminal] at h
    exact .inl ⟨terminal, (Option.some.inj h).symm⟩
  rw [if_neg terminal] at h
  rcases hheld : t.record.held with _ | held
  · simp only [hheld, bind, bind_eq_some_iff] at h
    obtain ⟨m, hm, h⟩ := h
    obtain ⟨⟨state, node, enteredAt, park, terminalAt, wait, recheckAt, retry, context, e⟩, lands,
      now, seqs⟩ := arrive_spec hm
    have lands' : ∀ r' : RunRecord, r'.node = m.record.node → r'.state = m.record.state →
        Lands t.record target r' := by
      intro r' hn hs
      cases lands with
      | wait h1 h2 => exact .wait (hn.trans h1) (hs.trans h2)
      | done h1 h2 => exact .done (hn.trans h1) (hs.trans h2)
      | failed h1 h2 => exact .failed (hn.trans h1) (hs.trans h2)
      | user h1 h2 => exact .user (hn.trans h1) (hs.trans h2)
      | node ht h1 h2 => exact .node ht (hn.trans h1) (hs.trans h2)
    refine .inr (.inr ⟨rfl, ?_⟩)
    split at h
    · cases h
      refine ⟨⟨state, node, enteredAt, park, terminalAt, wait, recheckAt, retry, context,
        t.record.key, t.record.input, ?_⟩, .inr ⟨?_, ?_⟩, lands' _ rfl rfl, now, seqs⟩
      all_goals simp only [Transition.edit, e]
    · cases h
      refine ⟨⟨state, node, enteredAt, park, terminalAt, wait, recheckAt, retry, context,
        object.key, some object, ?_⟩, .inl ⟨rfl, rfl⟩, lands' _ rfl rfl, now, seqs⟩
      simp only [Transition.edit, e]
  · simp only [hheld] at h
    exact .inr (.inl ⟨held, rfl, (Option.some.inj h).symm⟩)

end Transition

end Rimz.Workflow
