import Rimz.Workflow.Interleavings

/-!
# Edits that judge nothing

What an until session has judged and what it was pushed back with stand in its attempt, in the
attempt slot or in the held session. Most edits leave both alone: they drop the attempt, end it, or
change what is around it, and they journal no row that keeps or pushes a turn.
-/

namespace Rimz.Workflow
open Std

/-- A row that a verdict's action on a judged turn leaves: the action, the turn, the attempt and the
message of a push-back. -/
structure Acted where
  action : TurnEndAction
  turn : TurnEnd
  seq : Option Nat
  message : Option MessageId

/-- The action of a `Kept` or `Pushed` row. -/
def JournalEntry.act (e : JournalEntry) : Option Acted :=
  match e.event with
  | .turnEnd .kept turn _ _ _ _ _ message => some ⟨.kept, turn, e.seq, message⟩
  | .turnEnd .pushed turn _ _ _ _ _ message => some ⟨.pushed, turn, e.seq, message⟩
  | _ => none

def actions (es : List JournalEntry) : List Acted := es.filterMap JournalEntry.act

@[simp] lemma actions_append {es fs} :
    actions (es ++ fs) = actions es ++ actions fs := filterMap_append

lemma actions_snoc {es e} (h : e.act = none) : actions (es ++ [e]) = actions es := by
  simp [actions, h]

/-- What an attempt has of the session's judgments. -/
structure Mark where
  seq : Nat
  judged : Option TurnEnd
  push : Option PushBack

def LiveAttempt.mark (a : LiveAttempt) : Mark := ⟨a.seq, a.judged, a.push⟩

/-- A held session stays held; the attempt stays what it is or is dropped, and an ending stays. -/
structure Calm (r r' : RunRecord) : Prop where
  next : r.nextSeq ≤ r'.nextSeq
  held : ∀ h', r'.held = some h' → ∃ h, r.held = some h ∧ h'.attempt.mark = h.attempt.mark
  slot : r'.held = none → r.held = none ∧ ∀ a', r'.attempt = some a' →
    ∃ a, r.attempt = some a ∧ a'.mark = a.mark ∧ (a.ending.isSome = true → a'.ending.isSome = true)

namespace Calm
variable {r r' r'' : RunRecord}

lemma live (h : Calm r r') (held : r'.held = none) {a'} (attempt : r'.attempt = some a') :
    r.held = none ∧ ∃ a, r.attempt = some a ∧ a'.mark = a.mark
      ∧ (a.ending.isSome = true → a'.ending.isSome = true) :=
  ⟨(h.slot held).1, (h.slot held).2 a' attempt⟩

lemma refl (r : RunRecord) : Calm r r where
  next := Nat.le_refl _
  held h hh := ⟨h, hh, rfl⟩
  slot hn := ⟨hn, fun a ha => ⟨a, ha, rfl, id⟩⟩

lemma trans (h : Calm r r') (h' : Calm r' r'') : Calm r r'' where
  next := Nat.le_trans h.next h'.next
  held k hk := by
    obtain ⟨k', hk', e⟩ := h'.held k hk
    obtain ⟨k'', hk'', e'⟩ := h.held k' hk'
    exact ⟨k'', hk'', e.trans e'⟩
  slot hn := by
    obtain ⟨hn', live'⟩ := h'.slot hn
    obtain ⟨hn'', live⟩ := h.slot hn'
    refine ⟨hn'', fun a ha => ?_⟩
    obtain ⟨a', ha', e, ends⟩ := live' a ha
    obtain ⟨a'', ha'', e', ends'⟩ := live a' ha'
    exact ⟨a'', ha'', e.trans e', fun he => ends (ends' he)⟩

section
variable (next : r'.nextSeq = r.nextSeq)
include next

/-- The session stays, and the attempt stays or goes. -/
lemma of_slot (held : r'.held = r.held) (attempt : r'.attempt = r.attempt ∨ r'.attempt = none) :
    Calm r r' where
  next := Nat.le_of_eq next.symm
  held h hh := ⟨h, held ▸ hh, rfl⟩
  slot hn := by
    refine ⟨held ▸ hn, fun a ha => ?_⟩
    rcases attempt with e | e
    · exact ⟨a, e ▸ ha, rfl, id⟩
    · cases e.symm.trans ha

/-- The attempt keeps its mark. -/
lemma of_attempt {f} (held : r'.held = r.held) (attempt : r'.attempt = r.attempt.map f)
    (mark : ∀ a, (f a).mark = a.mark)
    (ending : ∀ a, a.ending.isSome = true → (f a).ending.isSome = true) :
    Calm r r' where
  next := Nat.le_of_eq next.symm
  held h hh := ⟨h, held ▸ hh, rfl⟩
  slot hn := by
    refine ⟨held ▸ hn, fun a ha => ?_⟩
    rw [attempt] at ha
    obtain ⟨b, hb, rfl⟩ := map_eq_some_iff.mp ha
    exact ⟨b, hb, mark b, ending b⟩

lemma of_held {h h'} (held : r.held = some h) (held' : r'.held = some h')
    (mark : h'.attempt.mark = h.attempt.mark) : Calm r r' where
  next := Nat.le_of_eq next.symm
  held k hk := by
    cases held'.symm.trans hk
    exact ⟨h, held, mark⟩
  slot hn := by cases held'.symm.trans hn

lemma of_live {a a'} (held : r'.held = r.held) (attempt : r.attempt = some a)
    (attempt' : r'.attempt = some a') (mark : a'.mark = a.mark)
    (ending : a.ending.isSome = true → a'.ending.isSome = true) : Calm r r' where
  next := Nat.le_of_eq next.symm
  held h hh := ⟨h, held ▸ hh, rfl⟩
  slot hn := by
    refine ⟨held ▸ hn, fun b hb => ?_⟩
    cases attempt'.symm.trans hb
    exact ⟨a, attempt, mark, ending⟩

end

/-- No session comes to be held. -/
lemma alone (h : Calm r r') (none : r.held = none) : r'.held = Option.none := by
  cases e : r'.held with
  | none => rfl
  | some k =>
    obtain ⟨k', hk', -⟩ := h.held k e
    cases none.symm.trans hk'

/-- No attempt starts. -/
lemma empty (h : Calm r r') (held : r.held = none) (attempt : r.attempt = none) :
    r'.attempt = none := by
  cases e : r'.attempt with
  | none => rfl
  | some a =>
    obtain ⟨-, b, hb, -⟩ := h.live (h.alone held) e
    cases attempt.symm.trans hb

end Calm

/-- An edit of a transition that judges nothing. -/
structure Transition.Calm (t t' : Transition) : Prop where
  record : Workflow.Calm t.record t'.record
  rows : actions t'.entries = actions t.entries

namespace Transition
variable {spec : WorkflowSpec} {t t' t'' : Transition}

lemma Calm.refl (t : Transition) : t.Calm t := ⟨.refl _, rfl⟩

lemma Calm.trans (h : t.Calm t') (h' : t'.Calm t'') : t.Calm t'' :=
  ⟨h.record.trans h'.record, h'.rows.trans h.rows⟩

section

variable (t : Transition)

/-- A row without an action judges nothing. -/
lemma push_calm {seq event}
    (h : JournalEntry.act ⟨seq, t.now, t.record.node, event⟩ = none) : t.Calm (t.push seq event) :=
  ⟨.refl _, actions_snoc h⟩

lemma edit_calm {f} (next : (f t.record).nextSeq = t.record.nextSeq)
    (held : (f t.record).held = t.record.held)
    (attempt : (f t.record).attempt = t.record.attempt ∨ (f t.record).attempt = none) :
    t.Calm (t.edit f) :=
  ⟨.of_slot next held attempt, rfl⟩

lemma editAttempt_calm {f} (mark : ∀ a, (f a).mark = a.mark)
    (ending : ∀ a, a.ending.isSome = true → (f a).ending.isSome = true) : t.Calm (t.editAttempt f) :=
  ⟨.of_attempt rfl rfl rfl mark ending, rfl⟩

lemma own_calm (me : Host) : t.Calm (t.editAttempt fun a => { a with host := me }) :=
  t.editAttempt_calm (fun _ => rfl) fun _ => id

lemma closeWait_calm : t.Calm t.closeWait := by
  simp only [closeWait]
  cases t.record.wait with
  | none => exact t.edit_calm rfl rfl (.inl rfl)
  | some w => exact ⟨.of_slot rfl rfl (.inl rfl), actions_snoc rfl⟩

lemma ite_calm (p : Prop) [Decidable p] : t.Calm (if p then t.closeWait else t) := by
  split
  · exact t.closeWait_calm
  · exact .refl t

end

lemma mergeWait_calm {object at_} (h : t.mergeWait spec object at_ = some t') : t.Calm t' := by
  obtain ⟨detail, -, h⟩ := bind_eq_some_iff.mp h
  cases h
  exact (t.ite_calm _).trans (edit_calm _ rfl rfl (.inl rfl))

lemma stepWait_calm (t : Transition) (outcome : String) (detail : Option String) :
    t.Calm (t.stepWait outcome detail) := by
  simp only [stepWait]
  exact (t.ite_calm _).trans (edit_calm _ rfl rfl (.inl rfl))

lemma moveTo_calm (t : Transition) (target : String) (object : Value) (reason : ParkReason) :
    t.Calm (t.moveTo target object reason) := by
  simp only [moveTo]
  split
  · exact (t.edit_calm rfl rfl (.inl rfl)).trans (push_calm _ rfl)
  · split
    · exact (t.edit_calm rfl rfl (.inl rfl)).trans (push_calm _ rfl)
    · exact t.edit_calm rfl rfl (.inl rfl)

lemma arrive_calm {target object reason} (h : t.arrive spec target object reason = some t') :
    t.Calm t' := by
  simp only [arrive] at h
  split at h
  · exact mergeWait_calm h
  · cases h
    exact t.closeWait_calm.trans (moveTo_calm _ _ _ _)

lemma route_calm {target object reason} (h : t.route spec target object reason = some t') :
    t.Calm t' := by
  simp only [route] at h
  split at h
  · cases h
    exact .refl t
  split at h
  · next held hheld =>
    -- The verdict is left on the session.
    cases h
    exact ⟨.of_held rfl hheld rfl rfl, rfl⟩
  obtain ⟨u, arrived, h⟩ := bind_eq_some_iff.mp h
  have dropped := (arrive_calm arrived).trans
    (u.edit_calm (f := fun r => { r with attempt := none }) rfl rfl (.inr rfl))
  split at h
  · cases h
    exact dropped
  · cases h
    exact dropped.trans (edit_calm _ rfl rfl (.inl rfl))

lemma engineRoute_calm {outcome target object reason}
    (h : t.engineRoute spec outcome object target reason = some t') : t.Calm t' :=
  (t.push_calm rfl).trans (route_calm h)

lemma capRoute_calm {bound visits max v} (h : t.capRoute spec bound visits max = some (t', v)) :
    t.Calm t' := by
  obtain ⟨target, -, e⟩ := bind_eq_some_iff.mp h
  cases e
  exact t.push_calm rfl

lemma resetStep_calm (t : Transition) (seq : Nat) (outcome step : String) (definition : Step) :
    t.Calm (t.resetStep seq outcome step definition) := by
  simp only [resetStep]
  cases t.record.visits[step]? with
  | none => exact .refl t
  | some visits =>
    dsimp only
    split
    · exact (t.edit_calm rfl rfl (.inl rfl)).trans (push_calm _ rfl)
    · exact .refl t

lemma resetOutcomes_calm (t : Transition) (seq : Nat) (outcome : String) :
    t.Calm (t.resetOutcomes spec seq outcome) := by
  simp only [resetOutcomes]
  generalize spec.steps.toList = steps
  induction steps generalizing t with
  | nil => exact .refl t
  | cons step steps ih => exact (t.resetStep_calm seq outcome step.1 step.2).trans (ih _)

lemma turnEnd_calm {attempt action verdict reason} (kept : action ≠ .kept)
    (pushed : action ≠ .pushed)
    (h : t.turnEnd attempt action verdict reason = some t') : t.Calm t' := by
  obtain ⟨turn, -, e⟩ := bind_eq_some_iff.mp h
  cases e
  refine ⟨.refl _, actions_snoc ?_⟩
  cases action with
  | kept => exact absurd rfl kept
  | pushed => exact absurd rfl pushed
  | closed | discarded | interrupted => rfl

/-! ### Results -/

lemma finishCheck_calm {seq object} (h : t.finishCheck spec seq object = some t') : t.Calm t' := by
  simp only [finishCheck] at h
  split at h
  · simp only [bind, bind_eq_some_iff] at h
    obtain ⟨check, -, answer, -, attempt, -, h⟩ := h
    refine Calm.trans ?_ (route_calm h)
    have journaled : t.Calm ((t.edit fun r => { r with attempt := none }).push (some seq)
        (.evaluation (t.holds spec check answer).origin (t.holds spec check answer).outcome
          (t.holds spec check answer).object attempt.startedAt t.now none)) :=
      (t.edit_calm rfl rfl (.inr rfl)).trans (push_calm _ rfl)
    split <;> split
    · exact journaled.trans ((resetOutcomes_calm _ _ _).trans (push_calm _ rfl))
    · exact journaled.trans (push_calm _ rfl)
    · exact journaled.trans (resetOutcomes_calm _ _ _)
    · exact journaled
  · cases h
    exact .refl t

lemma stampRetry_actions {seq retry es} : actions (es.map (stampRetry seq retry)) = actions es := by
  rw [actions, List.filterMap_map]
  congr 1
  funext e
  simp only [Function.comp_apply, stampRetry]
  split
  · next h =>
    split
    · simp [JournalEntry.act, h]
    · rfl
  · rfl

lemma failJudge_calm {seq attempt failure reason resetAt retry}
    (h : t.failJudge spec seq attempt failure reason resetAt = some (t', retry)) : t.Calm t' := by
  simp only [failJudge] at h
  have dropped : t.Calm ((t.closeWait.push (some seq) (.evaluation .engine failure
      (t.engineObject (.object [("outcome", .string failure), ("reason", .string reason)]))
      attempt.startedAt t.now attempt.retry)).edit fun r =>
        { r with attempt := none, recheckAt := none }) :=
    (t.closeWait_calm.trans (push_calm _ rfl)).trans (edit_calm _ rfl rfl (.inr rfl))
  split at h
  · cases h
    exact dropped
  split at h
  · cases h
    exact dropped.trans (edit_calm _ rfl rfl (.inl rfl))
  split at h
  · cases h
    exact dropped.trans (edit_calm _ rfl rfl (.inl rfl))
  · obtain ⟨u, routed, e⟩ := map_eq_some_iff.mp h
    cases e
    exact dropped.trans (route_calm routed)

lemma finishJudge_calm {seq result retry} (h : t.finishJudge spec seq result = some (t', retry)) :
    t.Calm t' := by
  simp only [finishJudge] at h
  split at h
  · simp only [bind, bind_eq_some_iff] at h
    obtain ⟨attempt, -, check, -, h⟩ := h
    split at h
    · obtain ⟨u, finished, e⟩ := bind_eq_some_iff.mp h
      cases e
      have done := (t.edit_calm rfl rfl (.inl rfl)).trans (finishCheck_calm finished)
      exact ⟨done.record, (stampRetry_actions).trans done.rows⟩
    · exact failJudge_calm h
  · cases h
    exact .refl t

/-! ### The end of an attempt -/

lemma stageAgentEnd_calm {ending ask} (h : t.stageAgentEnd ending ask = some t') : t.Calm t' := by
  obtain ⟨a, p, ha, -, -, -, e⟩ := stageAgentEnd_spec h
  subst e
  exact ⟨.of_live rfl rfl ha rfl rfl fun _ => rfl, rfl⟩

lemma restartStep_calm (t : Transition) (step : String) (continued : Bool) :
    t.Calm (t.restartStep step continued) := by
  have reset : t.Calm (t.closeWait.resetVisits step "restart") :=
    (t.closeWait_calm.trans (edit_calm _ rfl rfl (.inl rfl))).trans (push_calm _ rfl)
  exact (reset.trans (edit_calm _ rfl rfl (.inl rfl))).trans (push_calm _ rfl)

lemma cancelRun_calm (t : Transition) (reason : Option String) : t.Calm (t.cancelRun reason) :=
  ((t.edit_calm rfl rfl (.inl rfl)).trans (push_calm _ rfl)).trans (push_calm _ rfl)

lemma journalAttempt_calm (t : Transition) (attempt : LiveAttempt) (previous : PreviousAttempt)
    (reason : Option String) : t.Calm (t.journalAttempt attempt previous reason) := by
  simp only [journalAttempt]
  split
  · exact t.push_calm rfl
  · exact .refl t

lemma closeTurn_calm {attempt verdict} (h : t.closeTurn attempt verdict = some t') : t.Calm t' := by
  simp only [closeTurn] at h
  split at h
  · exact turnEnd_calm (by decide) (by decide) h
  · cases h
    exact .refl t

lemma settleRoute_calm {attempt ending previous}
    (h : t.settleRoute spec attempt ending previous = some t') :
    t.Calm t' := by
  simp only [settleRoute] at h
  split at h
  · obtain ⟨u, closed, routed⟩ := bind_eq_some_iff.mp h
    exact ((closeTurn_calm closed).trans (u.edit_calm rfl rfl (.inl rfl))).trans (route_calm routed)
  · cases h
    exact t.restartStep_calm _ _
  · cases h
    exact (t.closeWait_calm.trans (edit_calm _ rfl rfl (.inl rfl))).trans (cancelRun_calm _ _)
  · obtain ⟨target, -, routed⟩ := bind_eq_some_iff.mp h
    exact (t.edit_calm rfl rfl (.inl rfl)).trans (engineRoute_calm routed)
  split at h
  · obtain ⟨target, -, routed⟩ := bind_eq_some_iff.mp h
    exact engineRoute_calm routed
  · obtain ⟨target, -, routed⟩ := bind_eq_some_iff.mp h
    exact route_calm routed

lemma settleStep_calm {attempt ending reason}
    (h : t.settleStep spec attempt ending reason = some t') :
    t.Calm t' := by
  obtain ⟨previous, -, settled⟩ := bind_eq_some_iff.mp h
  exact (t.journalAttempt_calm attempt previous reason).trans (settleRoute_calm settled)

lemma settleAgent_calm {reason} (h : t.settleAgent spec reason = some t') : t.Calm t' := by
  simp only [settleAgent, bind, bind_eq_some_iff] at h
  obtain ⟨attempt, -, ending, -, previous, -, settled⟩ := h
  exact (t.edit_calm rfl rfl (.inr rfl)).trans (settleStep_calm settled)

lemma abandonCheck_calm (t : Transition) (outcome : String) : t.Calm (t.abandonCheck outcome) := by
  simp only [abandonCheck]
  split
  · exact (t.edit_calm rfl rfl (.inr rfl)).trans (push_calm _ rfl)
  · exact .refl t

lemma finishScript_calm {ending reason settled}
    (h : t.finishScript spec ending reason = some (t', settled)) :
    t.Calm t' := by
  simp only [finishScript] at h
  split at h
  · split at h
    · cases h
      exact .refl t
    simp only [bind, bind_eq_some_iff] at h
    obtain ⟨previous, -, u, done, e⟩ := h
    cases e
    exact (t.edit_calm rfl rfl (.inr rfl)).trans (settleStep_calm done)
  · cases h
    exact t.abandonCheck_calm _

/-- A finished script leaves no attempt. -/
lemma finishScript_empty {ending reason settled} (alone : t.record.held = none)
    (h : t.finishScript spec ending reason = some (t', settled)) : t'.record.attempt = none := by
  simp only [finishScript] at h
  split at h
  · split at h
    · next none =>
      cases h
      exact none
    simp only [bind, bind_eq_some_iff] at h
    obtain ⟨previous, -, u, done, e⟩ := h
    cases e
    exact (settleStep_calm done).record.empty alone rfl
  · cases h
    exact congrArg RunRecord.attempt (abandonCheck_record _ _)

lemma bound_calm {owesExit due} (h : t.bound spec owesExit = some (t', due)) : t.Calm t' := by
  simp only [bound] at h
  split at h
  · cases h
    exact .refl t
  split at h
  · simp only [bind, bind_eq_some_iff, Prod.exists] at h
    obtain ⟨u, settled, finished, h⟩ := h
    have done := finishScript_calm finished
    split at h
    · cases h
      exact done
    simp only [bind_eq_some_iff] at h
    obtain ⟨target, -, v, routed, e⟩ := h
    cases e
    exact (done.trans (u.edit_calm rfl rfl (.inl rfl))).trans (engineRoute_calm routed)
  split at h
  · simp only [bind, bind_eq_some_iff, Prod.exists] at h
    obtain ⟨u, settled, finished, h⟩ := h
    have done := finishScript_calm finished
    split at h
    · cases h
      exact done
    simp only [bind_eq_some_iff] at h
    obtain ⟨target, -, v, routed, e⟩ := h
    cases e
    exact done.trans (engineRoute_calm routed)
  · cases h
    exact .refl t

end Transition

end Rimz.Workflow
