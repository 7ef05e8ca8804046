import Rimz.Presence.Focus

/-!
# The synchronizer's invariant

A pending switch is the current generation of the active tab, and no query speaks of a later one. So
a query that is wanted for the pending switch is never dropped for another, and after
`drive_due_query` every deadline of the synchronizer is ahead.
-/

namespace Rimz.Presence

/-- The switch a query confirms, if any, is of generation `g` or earlier. -/
def ClientQueryPurpose.UpTo (g : Nat) : ClientQueryPurpose → Prop
  | .general => True
  | .switchSettled generation _ => generation ≤ g

lemma ClientQueryPurpose.UpTo.mono {g g'} {p : ClientQueryPurpose} (h : p.UpTo g) (hle : g ≤ g') :
    p.UpTo g' := by
  cases p with
  | general => trivial
  | switchSettled => exact Nat.le_trans h hle

lemma upTo_latestClientQuery {g p q} (hp : p.UpTo g) (hq : q.UpTo g) :
    (latestClientQuery p q).UpTo g := by
  cases p <;> cases q <;> simp only [latestClientQuery] <;> try assumption
  split <;> assumption

/-- A query for the current switch wins. -/
lemma latestClientQuery_current {g tab p} (hp : p.UpTo g) :
    latestClientQuery p (.switchSettled g tab) = .switchSettled g tab := by
  cases p with
  | general => rfl
  | switchSettled => exact if_neg (Nat.not_lt.mpr hp)

structure FocusSync.Wf (f : FocusSync) : Prop where
  pending : ∀ p, f.mode = .switching p → p.generation = f.generation ∧ f.activeTab = some p.tab
  queued : ∀ p, f.queued = some p → p.UpTo f.generation
  inFlight : ∀ q, f.inFlight = some q → q.purpose.UpTo f.generation

namespace FocusSync
variable {f : FocusSync} {now : Nat}

@[simp] lemma queue_inFlight (p : ClientQueryPurpose) : (f.queue p).inFlight = f.inFlight := rfl
@[simp] lemma queue_mode {p} : (f.queue p).mode = f.mode := rfl
@[simp] lemma queue_clientSample {p} : (f.queue p).clientSample = f.clientSample := rfl

/-- No query is queued for a later switch. -/
lemma Wf.queue {p} (h : f.Wf) (hp : p.UpTo f.generation) : (f.queue p).Wf where
  pending := h.pending
  inFlight := h.inFlight
  queued q hq := by
    simp only [FocusSync.queue, Option.some.injEq] at hq
    subst hq
    cases hqueued : f.queued with
    | none => exact hp
    | some existing => exact upTo_latestClientQuery (h.queued existing hqueued) hp

lemma Wf.requestGeneralObservation (h : f.Wf) : f.requestGeneralObservation.Wf :=
  h.queue trivial

lemma Wf.invalidateClientSample (h : f.Wf) : (f.invalidateClientSample now).Wf := by
  apply Wf.requestGeneralObservation
  refine ⟨h.pending, h.queued, ?_⟩
  intro q hq
  obtain ⟨query, hquery, rfl⟩ := map_eq_some_iff.mp hq
  exact h.inFlight query hquery

/-- A switch is a new generation while the counter does not wrap. -/
lemma Wf.acceptTabUpdate {active} (h : f.Wf) (hcount : f.generation + 1 < 2 ^ 64) :
    (f.acceptTabUpdate active now).Wf := by
  cases active with
  | none =>
    cases hactive : f.activeTab <;>
    · simp only [FocusSync.acceptTabUpdate, hactive]
      exact Wf.requestGeneralObservation ⟨nofun, h.queued, h.inFlight⟩
  | some next =>
    cases hactive : f.activeTab with
    | none =>
      simp only [FocusSync.acceptTabUpdate, hactive]
      refine Wf.requestGeneralObservation ⟨fun p hp => ?_, h.queued, h.inFlight⟩
      -- without an active tab no switch is pending
      rw [(h.pending p hp).2] at hactive
      cases hactive
    | some previous =>
      simp only [FocusSync.acceptTabUpdate, hactive, Nat.mod_eq_of_lt hcount]
      split
      · refine ⟨fun p hp => ?_, fun p hp => ?_, fun q hq => ?_⟩
        · cases hp
          exact ⟨rfl, rfl⟩
        · exact (h.queued p hp).mono (Nat.le_succ _)
        · exact (h.inFlight q hq).mono (Nat.le_succ _)
      rename_i hsame
      obtain rfl : previous = next := by simpa using hsame
      refine ⟨fun p hp => ?_, h.queued, h.inFlight⟩
      rw [← hactive]
      exact h.pending p hp

lemma Wf.acceptConnectedClients {n} (h : f.Wf) : (f.acceptConnectedClients n).Wf := by
  unfold FocusSync.acceptConnectedClients
  split
  · exact Wf.requestGeneralObservation ⟨h.pending, h.queued, h.inFlight⟩
  · exact h

lemma Wf.expireQuery (h : f.Wf) : (f.expireQuery now).Wf := by
  unfold FocusSync.expireQuery
  split
  · next expired hflight =>
    split
    · exact Wf.queue ⟨h.pending, h.queued, nofun⟩ (h.inFlight _ hflight)
    · exact h
  · exact h

lemma Wf.takeReply (h : f.Wf) : f.takeReply.1.Wf := by
  unfold FocusSync.takeReply
  split
  · dsimp only
    split
    · next query hflight =>
      exact Wf.queue ⟨h.pending, h.queued, nofun⟩ (h.inFlight _ hflight)
    · exact ⟨h.pending, h.queued, nofun⟩
  · exact ⟨h.pending, h.queued, nofun⟩

lemma Wf.applyObservation {p clients} (h : f.Wf) : (f.applyObservation p clients).1.Wf := by
  unfold FocusSync.applyObservation
  split
  · exact h
  · split
    · exact ⟨nofun, h.queued, h.inFlight⟩
    · exact h

lemma Wf.acceptClientSample {clients} (h : f.Wf) : (f.acceptClientSample clients now).1.Wf := by
  unfold FocusSync.acceptClientSample
  dsimp only
  have consumed : (f.consumeReply now).1.Wf := h.expireQuery.takeReply
  have sampled : FocusSync.Wf { (f.consumeReply now).1 with
      clientSample := some (clientSampleOf clients) } :=
    ⟨consumed.pending, consumed.queued, consumed.inFlight⟩
  split
  · exact ⟨sampled.applyObservation.pending, sampled.applyObservation.queued,
      sampled.applyObservation.inFlight⟩
  · exact sampled.applyObservation

lemma Wf.queueSettled (h : f.Wf) : (f.queueSettled now).Wf := by
  unfold FocusSync.queueSettled
  split
  · exact h
  rename_i pending hmode
  dsimp only
  split
  · exact h.queue (Nat.le_of_eq (h.pending _ hmode).1)
  · exact h

lemma Wf.issue {allowed} (h : f.Wf) : (f.issue now allowed).1.Wf := by
  unfold FocusSync.issue
  split
  · exact h
  split
  · exact h
  rename_i purpose hqueued
  refine ⟨h.pending, nofun, fun q hq => ?_⟩
  cases hq
  exact h.queued purpose hqueued

lemma Wf.driveDueQuery {allowed} (h : f.Wf) : (f.driveDueQuery now allowed).1.Wf :=
  h.expireQuery.queueSettled.issue

/-- A changed roster moves no deadline. -/
lemma nextDeadline_invalidateClientSample :
    (f.invalidateClientSample now).nextDeadline = f.nextDeadline := by
  have hasQuery (g tab : Nat) : (f.invalidateClientSample now).hasQuery (.switchSettled g tab) =
      f.hasQuery (.switchSettled g tab) := by
    cases hqueued : f.queued <;> cases hflight : f.inFlight <;>
      simp [FocusSync.invalidateClientSample, FocusSync.requestGeneralObservation, FocusSync.queue,
        FocusSync.hasQuery, latestClientQuery, hqueued, hflight]
  have settle : (f.invalidateClientSample now).settleDeadline = f.settleDeadline := by
    cases hmode : f.mode with
    | stable =>
      simp [settleDeadline, FocusSync.invalidateClientSample,
        FocusSync.requestGeneralObservation, hmode]
    | switching p =>
      have mode : (f.invalidateClientSample now).mode = .switching p := hmode
      simp only [settleDeadline, hmode, mode, hasQuery]
  have flight : (f.invalidateClientSample now).inFlight.map (·.deadline) =
      f.inFlight.map (·.deadline) := by
    cases hflight : f.inFlight <;>
      simp [FocusSync.invalidateClientSample, FocusSync.requestGeneralObservation, hflight]
  rw [nextDeadline, settle, flight, nextDeadline]

/-! ## The deadlines after `drive_due_query` -/

/-- The query in flight has time left. -/
def Unexpired (f : FocusSync) (now : Nat) : Prop :=
  ∀ q, f.inFlight = some q → now < q.deadline

/-- A pending switch is still settling, or a query for it is wanted. -/
def Asked (f : FocusSync) (now : Nat) : Prop :=
  ∀ p, f.mode = .switching p →
    now < p.settleAt ∨ f.hasQuery (.switchSettled p.generation p.tab) = true

/-- An expired query is no longer in flight. -/
lemma unexpired_expireQuery : (f.expireQuery now).Unexpired now := by
  intro q hq
  cases hflight : f.inFlight with
  | none => simp [FocusSync.expireQuery, hflight] at hq
  | some query =>
    by_cases hdue : query.deadline ≤ now
    · simp [FocusSync.expireQuery, hflight, hdue] at hq
    · simp only [FocusSync.expireQuery, hflight, hdue, if_false, Option.some.injEq] at hq
      subst hq
      exact Nat.lt_of_not_le hdue

lemma Unexpired.queueSettled (h : f.Unexpired now) : (f.queueSettled now).Unexpired now := by
  unfold FocusSync.queueSettled
  split
  · exact h
  · dsimp only
    split <;> exact h

/-- A settled switch is asked about. -/
lemma Wf.asked_queueSettled (h : f.Wf) : (f.queueSettled now).Asked now := by
  intro p hp
  cases hmode : f.mode with
  | stable => simp [FocusSync.queueSettled, hmode] at hp
  | switching pending =>
    obtain rfl : pending = p := by
      simp only [FocusSync.queueSettled, hmode] at hp
      split at hp
      · rw [queue_mode, hmode] at hp
        cases hp
        rfl
      · rw [hmode] at hp
        cases hp
        rfl
    obtain ⟨hgen, hactive⟩ := h.pending pending hmode
    by_cases hsettle : pending.settleAt ≤ now
    · right
      simp only [FocusSync.queueSettled, hmode, hactive, hsettle, true_and]
      split
      · -- the new purpose is of the current generation, so it replaces what was queued
        simp only [hasQuery, FocusSync.queue, or_eq_true, decide_eq_true_eq, Option.some.injEq]
        left
        cases hqueued : f.queued with
        | none => rfl
        | some existing =>
          have hexisting : existing.UpTo pending.generation := hgen ▸ h.queued existing hqueued
          exact latestClientQuery_current hexisting
      · next hask => simpa using hask
    · exact .inl (Nat.lt_of_not_le hsettle)

lemma Unexpired.issue {allowed} (h : f.Unexpired now) : (f.issue now allowed).1.Unexpired now := by
  unfold FocusSync.issue
  split
  · exact h
  split
  · exact h
  · intro q hq
    cases hq
    simp [keepaliveMs]

lemma Asked.issue {allowed} (h : f.Asked now) : (f.issue now allowed).1.Asked now := by
  unfold FocusSync.issue
  split
  · exact h
  rename_i hidle
  have hflight : f.inFlight = none := by
    simp only [or_eq_true, not_or, not_eq_true, Option.isSome_eq_false_iff,
      isNone_iff_eq_none] at hidle
    exact hidle.1
  split
  · exact h
  rename_i purpose hqueued
  intro p hp
  rcases h p hp with settling | asked
  · exact .inl settling
  right
  simp only [hasQuery, hqueued, hflight, Option.any_none, Bool.or_false, decide_eq_true_eq,
    Option.some.injEq] at asked
  simp [hasQuery, asked]

/-- After `drive_due_query` every deadline of the synchronizer is ahead. -/
lemma Wf.lt_nextDeadline {allowed deadline} (h : f.Wf)
    (hd : (f.driveDueQuery now allowed).1.nextDeadline = some deadline) : now < deadline := by
  have unexpired : (f.driveDueQuery now allowed).1.Unexpired now :=
    unexpired_expireQuery.queueSettled.issue
  have asked : (f.driveDueQuery now allowed).1.Asked now := h.expireQuery.asked_queueSettled.issue
  have hmem := List.min?_mem hd
  rcases mem_append.mp hmem with settle | flight
  · simp only [settleDeadline, Option.mem_toList] at settle
    split at settle
    · cases settle
    rename_i p hmode
    split at settle
    · cases settle
    · next hnone =>
      cases settle
      exact (asked p hmode).resolve_right hnone
  · simp only [Option.mem_toList, map_eq_some_iff] at flight
    obtain ⟨q, hq, rfl⟩ := flight
    exact unexpired q hq

end FocusSync

end Rimz.Presence
