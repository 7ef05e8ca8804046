import Rimz.Lib.Spans
import Rimz.Workflow.Engine

/-!
# Held time

An agent that asks, or that was stopped, is held: its step's timeout does not run. `hold` folds
every observation into one open hold, and credits the hold to the attempt when an observation shows
neither. This module follows the closed holds of an attempt beside what is credited for them, and
says when the credit counts every instant once.
-/

namespace Rimz.Workflow
open Rimz.Lib

/-- What one observation gives to `hold`. -/
structure Sight where
  ask : Option Asking
  stopped : Option Stopped
  now : Timestamp

/-- An attempt, with the holds closed so far: from the instant held since to the observation that
closed it. -/
structure Watched where
  attempt : LiveAttempt
  holds : List (Int × Int)

namespace Watched

/-- The attempt after an observation, and the hold which that closes. -/
def observe (w : Watched) (o : Sight) : Watched where
  attempt := (w.attempt.hold o.ask o.stopped o.now).1
  holds :=
    match (w.attempt.hold o.ask o.stopped o.now).1.heldSince, w.attempt.heldSince with
    | none, some since => w.holds ++ [(since, o.now)]
    | _, _ => w.holds

/-- The hold that is open at an instant. -/
def opened (w : Watched) (now : Timestamp) : List (Int × Int) :=
  (w.attempt.heldSince.map fun since => (since, now)).toList

/-- Observations in their order. -/
def run (w : Watched) (os : List Sight) : Watched :=
  os.foldl observe w

end Watched

/-- The instants of blocking evidence that an observation adds: the ask when none is open, and a
stop which is not an interrupt. -/
def Sight.evidence (o : Sight) (attempt : LiveAttempt) : List Timestamp :=
  (if attempt.asking.isNone then (o.ask.map Asking.since).toList else []) ++
    ((o.stopped.filter fun s => !s.interrupt).map Stopped.since).toList

/-- Nothing the observation shows is from before the end of a hold that was credited. -/
def Watched.Forward (w : Watched) (o : Sight) : Prop :=
  ∀ h ∈ w.holds, h.1 < h.2 → ∀ since ∈ o.evidence w.attempt, h.2 ≤ since

/-- Every observation of a run is so in the state it meets. -/
def Watched.RunsForward : Watched → List Sight → Prop
  | _, [] => True
  | w, o :: os => w.Forward o ∧ (w.observe o).RunsForward os

/-- Observations whose clock does not run back. -/
def Timely : Timestamp → List Sight → Prop
  | _, [] => True
  | last, o :: os => last ≤ o.now ∧ Timely o.now os

/-- The instant of the last observation. -/
def lastNow (start : Timestamp) (os : List Sight) : Timestamp :=
  os.foldl (fun _ o => o.now) start

/-- The whole milliseconds of a hold. -/
def wholeMs (h : Int × Int) : Nat :=
  (h.2 - h.1).toNat / 1000000

/-! ## One observation -/

/-- Whether an observation shows an ask, or a stop which is not an interrupt. -/
def Sight.blocked (o : Sight) : Bool :=
  o.ask.isSome || o.stopped.any fun s => !s.interrupt

/-- The hold of a live attempt at an instant: it lies between the start and now, and an open ask
lies in it. -/
structure Holding (a : LiveAttempt) (now : Int) : Prop where
  since : ∀ s : Int, a.heldSince = some s → a.startedAt ≤ s ∧ s ≤ now
  ask : ∀ k, a.asking = some k → ∃ s : Int, a.heldSince = some s ∧ s ≤ k.since

variable {a : LiveAttempt} {o : Sight} {last : Int}

/-- The stop of an observation, unless it is an interrupt. -/
def Sight.stop (o : Sight) : Option Timestamp :=
  (o.stopped.filter fun s => !s.interrupt).map Stopped.since

lemma blocked_eq (o : Sight) : o.blocked = (o.ask.isSome || o.stop.isSome) := by
  unfold Sight.blocked Sight.stop
  cases o.stopped with
  | none => rfl
  | some s => cases hs : s.interrupt <;> simp [Option.filter, hs]

lemma le_clamp_iff {b lo hi x : Int} (hlo : lo < b) (hhi : b ≤ hi) :
    b ≤ min (max x lo) hi ↔ b ≤ x := by
  omega

lemma le_of_earlier {x y e} (h : earlier x y = some e) (b : Int) :
    b ≤ e ↔ (∀ t : Int, x = some t → b ≤ t) ∧ ∀ t : Int, y = some t → b ≤ t := by
  cases x with
  | none =>
    cases y with
    | none => cases h
    | some t =>
      cases h
      simp
  | some u =>
    cases y with
    | none | some t =>
      cases h
      simp

/-- The ask that `hold` keeps: the open one, or the one just seen. -/
def Sight.asking (o : Sight) (a : LiveAttempt) : Option Asking :=
  o.ask.map fun seen => Asking.mk (match a.asking with
    | some open_ => open_.since
    | none => min (max seen.since a.startedAt) o.now) seen.text

/-- The hold that `hold` leaves open. -/
def Sight.heldSince (o : Sight) (a : LiveAttempt) : Option Timestamp :=
  (earlier ((o.asking a).map Asking.since) o.stop).map fun since =>
    min (max ((a.heldSince.map fun p => min p since).getD since) a.startedAt) o.now

lemma hold_eq (inv : Holding a last) :
    (a.hold o.ask o.stopped o.now).1 =
      { a with
        asking := o.asking a
        heldSince := o.heldSince a
        askedMs := a.askedMs + match o.heldSince a, a.heldSince with
          | none, some closed => ((o.now - closed).tdiv 1000000).toNat
          | _, _ => 0 } := by
  have hprevious : a.heldSince.or (a.asking.map Asking.since) = a.heldSince := by
    cases hk : a.asking with
    | none => simp
    | some k =>
      obtain ⟨s, hs, -⟩ := inv.ask k hk
      simp [hs]
  unfold LiveAttempt.hold
  rw [hprevious]
  rfl

lemma heldSince_isSome (o : Sight) (a : LiveAttempt) : (o.heldSince a).isSome = o.blocked := by
  rw [blocked_eq, Sight.heldSince, Sight.asking]
  cases o.ask <;> cases o.stop <;> rfl

section
variable (inv : Holding a last)
include inv

lemma le_asking_since {b : Int} (hlo : a.startedAt < b) (hhi : b ≤ o.now)
    (held : ∀ s : Int, a.heldSince = some s → b ≤ s) :
    (∀ t : Int, (o.asking a).map Asking.since = some t → b ≤ t) ↔
      ∀ t ∈ (if a.asking.isNone then (o.ask.map Asking.since).toList else []), b ≤ t := by
  unfold Sight.asking
  cases hask : o.ask with
  | none => simp
  | some seen =>
    cases hk : a.asking with
    | some k =>
      -- The open ask lies in the open hold.
      obtain ⟨s, hs, hle⟩ := inv.ask k hk
      have := Int.le_trans (held s hs) hle
      simpa using this
    | none => simpa using le_clamp_iff hlo hhi

lemma le_heldSince_iff {s b : Int} (h : o.heldSince a = some s) (hlo : a.startedAt < b)
    (hhi : b ≤ o.now) :
    b ≤ s ↔ (∀ s₀ : Int, a.heldSince = some s₀ → b ≤ s₀) ∧ ∀ t ∈ o.evidence a, b ≤ t := by
  obtain ⟨e, he, rfl⟩ := map_eq_some_iff.mp h
  have hmin : b ≤ (a.heldSince.map fun p => min p e).getD e ↔
      (∀ s₀ : Int, a.heldSince = some s₀ → b ≤ s₀) ∧ b ≤ e := by
    cases a.heldSince with
    | none | some p => simp
  rw [le_clamp_iff hlo hhi, hmin]
  apply and_congr_right
  intro held
  rw [le_of_earlier he, le_asking_since inv hlo hhi held]
  simp only [Sight.evidence, mem_append, or_imp, forall_and]
  apply and_congr_right
  intro _
  simp [Sight.stop]

lemma startedAt_le_asking (start : a.startedAt ≤ o.now) {k} (hk : o.asking a = some k) :
    a.startedAt ≤ k.since := by
  obtain ⟨seen, -, rfl⟩ := map_eq_some_iff.mp hk
  cases hopen : a.asking with
  | some open_ =>
    obtain ⟨s, hs, hle⟩ := inv.ask open_ hopen
    exact Int.le_trans (inv.since s hs).1 hle
  | none => exact le_min (le_max_right _ _) start

/-- The hold lies between the start and now, and the ask in it. -/
lemma Holding.observe (start : a.startedAt ≤ o.now) :
    Holding (a.hold o.ask o.stopped o.now).1 o.now := by
  rw [hold_eq inv]
  constructor
  · intro s hs
    obtain ⟨e, -, rfl⟩ := map_eq_some_iff.mp hs
    exact ⟨le_min (le_max_right _ _) start, min_le_right _ _⟩
  · intro k hk
    have hk : o.asking a = some k := hk
    have started := startedAt_le_asking inv start hk
    obtain ⟨e, he⟩ : ∃ e, earlier ((o.asking a).map Asking.since) o.stop = some e := by
      rw [hk]
      cases o.stop with
      | none | some t => exact ⟨_, rfl⟩
    have hle : e ≤ k.since := ((le_of_earlier he e).mp (Int.le_refl e)).1 k.since (by rw [hk]; rfl)
    refine ⟨_, show o.heldSince a = some _ by rw [Sight.heldSince, he]; rfl, ?_⟩
    have hmin : (a.heldSince.map fun p => min p e).getD e ≤ e := by
      cases a.heldSince with
      | none => exact Int.le_refl e
      | some p => exact min_le_right p e
    exact (min_le_left _ _).trans (max_le (hmin.trans hle) started)

end

/-! ## A run of observations -/

/-- What holds of a watched attempt at the instant of its last observation. -/
structure Watched.Inv (w : Watched) (now : Int) : Prop where
  holding : Holding w.attempt now
  start : w.attempt.startedAt ≤ now
  holds : ∀ h ∈ w.holds, w.attempt.startedAt ≤ h.1 ∧ h.1 ≤ h.2 ∧ h.2 ≤ now
  credit : w.attempt.askedMs = (w.holds.map wholeMs).sum

namespace Watched

variable {w : Watched}

lemma observe_attempt (inv : w.Inv last) :
    (w.observe o).attempt =
      { w.attempt with
        asking := o.asking w.attempt
        heldSince := o.heldSince w.attempt
        askedMs := w.attempt.askedMs + match o.heldSince w.attempt, w.attempt.heldSince with
          | none, some closed => ((o.now - closed).tdiv 1000000).toNat
          | _, _ => 0 } :=
  hold_eq inv.holding

lemma holds_observe_blocked (inv : w.Inv last) {s} (h : o.heldSince w.attempt = some s) :
    (w.observe o).holds = w.holds ∧ (w.observe o).opened o.now = [(s, o.now)] := by
  have hheld : (w.observe o).attempt.heldSince = some s := by rw [observe_attempt inv, ← h]
  constructor
  · have hheld : (w.attempt.hold o.ask o.stopped o.now).1.heldSince = some s := hheld
    rw [observe, hheld]
  · rw [opened, hheld]
    rfl

lemma holds_observe_clear (inv : w.Inv last) (h : o.heldSince w.attempt = none) :
    (w.observe o).holds = w.holds ++ w.opened o.now ∧ (w.observe o).opened o.now = [] := by
  have hheld : (w.observe o).attempt.heldSince = none := by rw [observe_attempt inv, ← h]
  constructor
  · have hheld : (w.attempt.hold o.ask o.stopped o.now).1.heldSince = none := hheld
    rw [observe, hheld, opened]
    cases w.attempt.heldSince with
    | none => simp
    | some s => rfl
  · rw [opened, hheld]
    rfl

lemma wholeMs_eq {s now} (h : s ≤ now) : ((now - s).tdiv 1000000).toNat = wholeMs (s, now) := by
  obtain ⟨n, hn⟩ := Int.eq_ofNat_of_zero_le (Int.sub_nonneg.mpr h)
  rw [wholeMs, hn]
  rfl

lemma Inv.observe (inv : w.Inv last) (le : last ≤ o.now) : (w.observe o).Inv o.now := by
  have start : w.attempt.startedAt ≤ o.now := Int.le_trans inv.start le
  have same : (w.observe o).attempt.startedAt = w.attempt.startedAt := rfl
  have before (h) (hh : h ∈ w.holds) :
      w.attempt.startedAt ≤ h.1 ∧ h.1 ≤ h.2 ∧ h.2 ≤ o.now := by
    obtain ⟨h1, h2, h3⟩ := inv.holds h hh
    exact ⟨h1, h2, Int.le_trans h3 le⟩
  refine ⟨inv.holding.observe start, start, ?_, ?_⟩
  · rw [same]
    cases hs : o.heldSince w.attempt with
    | some s =>
      rw [(holds_observe_blocked inv hs).1]
      exact before
    | none =>
      rw [(holds_observe_clear inv hs).1]
      intro h hh
      rcases mem_append.mp hh with hh | hh
      · exact before h hh
      obtain ⟨s, hs, rfl⟩ : ∃ s, w.attempt.heldSince = some s ∧ h = (s, o.now) := by
        simpa [opened, eq_comm] using hh
      obtain ⟨h1, h2⟩ := inv.holding.since s hs
      exact ⟨h1, Int.le_trans h2 le, Int.le_refl _⟩
  · rw [observe_attempt inv]
    cases hs : o.heldSince w.attempt with
    | some s =>
      rw [(holds_observe_blocked inv hs).1]
      exact inv.credit
    | none =>
      rw [(holds_observe_clear inv hs).1, opened]
      cases hopen : w.attempt.heldSince with
      | none => simpa using inv.credit
      | some s =>
        have hle := Int.le_trans (inv.holding.since s hopen).2 le
        simp [inv.credit, wholeMs_eq hle]

/-- The closed holds and the open one count every instant once when the closed ones do and the open
one begins behind them. -/
lemma countedOnce_opened (inv : w.Inv last) :
    CountedOnce (w.holds ++ w.opened last) ↔
      CountedOnce w.holds ∧
        ∀ h ∈ w.holds, h.1 < h.2 → ∀ s : Int, w.attempt.heldSince = some s → h.2 ≤ s := by
  unfold opened
  cases w.attempt.heldSince with
  | none => simp
  | some s =>
    have ends : ∀ h ∈ w.holds, h.2 ≤ last := fun h hh => (inv.holds h hh).2.2
    simpa using countedOnce_concat (s := s) ends

lemma evidence_of_heldSince (h : o.heldSince a = none) : o.evidence a = [] := by
  have clear : o.blocked = false := by rw [← heldSince_isSome o a, h]; rfl
  rw [blocked_eq, Bool.or_eq_false_iff, Option.isSome_eq_false_iff, Option.isSome_eq_false_iff,
    isNone_iff_eq_none, isNone_iff_eq_none] at clear
  have hstop : (o.stopped.filter fun s => !s.interrupt).map Stopped.since = none := clear.2
  rw [Sight.evidence, clear.1, hstop]
  simp

lemma Inv.later (inv : w.Inv last) {now} (le : last ≤ now) : w.Inv now where
  holding :=
    { since := fun s hs => ⟨(inv.holding.since s hs).1, Int.le_trans (inv.holding.since s hs).2 le⟩
      ask := inv.holding.ask }
  start := Int.le_trans inv.start le
  holds h hh := ⟨(inv.holds h hh).1, (inv.holds h hh).2.1, Int.le_trans (inv.holds h hh).2.2 le⟩
  credit := inv.credit

lemma Inv.within (inv : w.Inv last) :
    ∀ h ∈ w.holds ++ w.opened last, w.attempt.startedAt ≤ h.1 ∧ h.2 ≤ last := by
  intro h hh
  rcases mem_append.mp hh with hh | hh
  · exact ⟨(inv.holds h hh).1, (inv.holds h hh).2.2⟩
  · obtain ⟨s, hs, rfl⟩ : ∃ s, w.attempt.heldSince = some s ∧ h = (s, last) := by
      simpa [opened, eq_comm] using hh
    exact ⟨(inv.holding.since s hs).1, Int.le_refl _⟩

lemma startedAt_run (w : Watched) (os : List Sight) :
    (w.run os).attempt.startedAt = w.attempt.startedAt := by
  induction os generalizing w with
  | nil => rfl
  | cons o os ih => exact ih (w.observe o)

/-- One observation keeps every instant counted once exactly when it is dated forward. -/
lemma countedOnce_observe (inv : w.Inv last) (le : last ≤ o.now) :
    CountedOnce ((w.observe o).holds ++ (w.observe o).opened o.now) ↔
      CountedOnce (w.holds ++ w.opened last) ∧ w.Forward o := by
  have ends : ∀ h ∈ w.holds, h.2 ≤ o.now := fun h hh => Int.le_trans (inv.holds h hh).2.2 le
  rw [countedOnce_opened inv]
  cases hs : o.heldSince w.attempt with
  | some s =>
    obtain ⟨hholds, hopened⟩ := holds_observe_blocked inv hs
    rw [hholds, hopened, countedOnce_concat ends, and_assoc, Forward, ← forall₂_and]
    apply and_congr_right
    intro _
    apply forall₂_congr
    intro h hh
    rw [← imp_and]
    apply imp_congr_right
    intro positive
    have hlo : w.attempt.startedAt < h.2 := Int.lt_of_le_of_lt (inv.holds h hh).1 positive
    exact le_heldSince_iff inv.holding hs hlo (ends h hh)
  | none =>
    obtain ⟨hholds, hopened⟩ := holds_observe_clear inv hs
    have forward : w.Forward o := by
      intro h _ _ t ht
      rw [evidence_of_heldSince hs] at ht
      cases ht
    rw [hholds, hopened, append_nil, countedOnce_opened (inv.later le)]
    exact (and_iff_left forward).symm

/-- A run of observations keeps the invariant, and counts every instant once exactly when all of
them are dated forward. -/
lemma countedOnce_run (inv : w.Inv last) {os} (clock : Timely last os) :
    (w.run os).Inv (lastNow last os) ∧
    (CountedOnce ((w.run os).holds ++ (w.run os).opened (lastNow last os)) ↔
      CountedOnce (w.holds ++ w.opened last) ∧ w.RunsForward os) := by
  induction os generalizing w last with
  | nil => exact ⟨inv, (and_iff_left trivial).symm⟩
  | cons o os ih =>
    obtain ⟨le, clock⟩ := clock
    obtain ⟨hinv, hcount⟩ := ih (inv.observe le) clock
    refine ⟨hinv, ?_⟩
    show CountedOnce (((w.observe o).run os).holds ++ _) ↔ _
    rw [RunsForward, ← and_assoc, ← countedOnce_observe inv le]
    exact hcount

lemma wholeMs_sum_le (holds : List (Int × Int)) :
    1000000 * (holds.map wholeMs).sum ≤ totalLength holds := by
  induction holds with
  | nil => exact Nat.le_refl 0
  | cons h holds ih =>
    have hle : 1000000 * wholeMs h ≤ (h.2 - h.1).toNat := Nat.mul_div_le _ _
    rw [map_cons, sum_cons, Nat.mul_add]
    exact Nat.add_le_add hle ih

lemma wholeMs_sum_eq {holds} (whole : ∀ h ∈ holds, 1000000 ∣ (h.2 - h.1).toNat) :
    1000000 * (holds.map wholeMs).sum = totalLength holds := by
  induction holds with
  | nil => rfl
  | cons h holds ih =>
    have hhead : 1000000 * wholeMs h = (h.2 - h.1).toNat :=
      Nat.mul_div_cancel' (whole h mem_cons_self)
    rw [map_cons, sum_cons, Nat.mul_add, hhead,
      ih fun h hh => whole h (mem_cons_of_mem _ hh)]
    rfl

end Watched

/-- Held time is credited once exactly when no observation shows blocking evidence from before the
end of a hold that is already credited. The credit is that of the closed holds in whole
milliseconds; in a run so dated it is at most the time these cover, all of it when they last whole
milliseconds, it fits with the open hold into the time since the start, and the timeout of the step
moves by no more than that. -/
theorem hold_credits_once_iff {a : LiveAttempt} (no_ask : a.asking = none)
    (no_hold : a.heldSince = none) (no_credit : a.askedMs = 0) {os : List Sight}
    (clock : Timely a.startedAt os) :
    let w := Watched.run ⟨a, []⟩ os
    let now := lastNow a.startedAt os
    w.attempt.askedMs = (w.holds.map wholeMs).sum ∧
    (CountedOnce (w.holds ++ w.opened now) ↔ Watched.RunsForward ⟨a, []⟩ os) ∧
    (Watched.RunsForward ⟨a, []⟩ os →
      1000000 * w.attempt.askedMs ≤ (covered w.holds).card ∧
      ((∀ h ∈ w.holds, 1000000 ∣ (h.2 - h.1).toNat) →
        1000000 * w.attempt.askedMs = (covered w.holds).card) ∧
      1000000 * w.attempt.askedMs + totalLength (w.opened now) ≤ (now - a.startedAt).toNat ∧
      ∀ spec r at_ span, r.attempt = some w.attempt → spec.checks[r.node]? = none →
        spec.steps[r.node]?.bind Step.timeout = some span → timeoutAt spec r = some at_ →
        at_ ≤ a.startedAt + span + (covered w.holds).card) := by
  intro w now
  have first : (⟨a, []⟩ : Watched).Inv a.startedAt :=
    { holding := ⟨fun s hs => (by cases no_hold.symm.trans hs), fun k hk =>
        (by cases no_ask.symm.trans hk)⟩
      start := Int.le_refl _
      holds := nofun
      credit := no_credit }
  obtain ⟨inv, count⟩ := Watched.countedOnce_run first clock
  have start : w.attempt.startedAt = a.startedAt := Watched.startedAt_run ⟨a, []⟩ os
  have once : CountedOnce (w.holds ++ w.opened now) ↔ Watched.RunsForward ⟨a, []⟩ os := by
    rw [count]
    apply and_iff_right
    simp only [Watched.opened, no_hold]
    exact countedOnce_nil
  refine ⟨inv.credit, once, ?_⟩
  intro forward
  have all := once.mpr forward
  have closed : totalLength w.holds = (covered w.holds).card :=
    ((Watched.countedOnce_opened inv).mp all).1
  have credit : w.attempt.askedMs = (w.holds.map wholeMs).sum := inv.credit
  have bound : 1000000 * w.attempt.askedMs ≤ (covered w.holds).card := by
    rw [credit, ← closed]
    exact Watched.wholeMs_sum_le w.holds
  refine ⟨bound, ?_, ?_, ?_⟩
  · intro whole
    rw [credit, ← closed]
    exact Watched.wholeMs_sum_eq whole
  · have within : ∀ h ∈ w.holds ++ w.opened now, a.startedAt ≤ h.1 ∧ h.2 ≤ now := by
      rw [← start]
      exact inv.within
    have le := card_covered_le_of_within within
    have split : totalLength (w.holds ++ w.opened now) = _ := totalLength_append (w.opened now)
    rw [show totalLength (w.holds ++ w.opened now) = _ from all] at split
    omega
  · intro spec r at_ span hr hcheck hspan htimeout
    simp only [timeoutAt, hcheck, hr, hspan, bind_some] at htimeout
    split at htimeout
    · cases htimeout
    cases htimeout
    have hms : fromMillis w.attempt.askedMs = 1000000 * (w.attempt.askedMs : Int) := by
      rw [fromMillis, Int.mul_comm]
    rw [start, hms]
    have bound' : 1000000 * (w.attempt.askedMs : Int) ≤ (covered w.holds).card := by omega
    show (a.startedAt + 1000000 * (w.attempt.askedMs : Int) + span : Int) ≤ _
    rw [Int.add_right_comm]
    exact Int.add_le_add_left bound' _

def startedAttempt : LiveAttempt where
  kind := .agent
  lifecycle := .turn
  seq := 1
  node := "build"
  visit := some 1
  startedAt := 0
  host := 1

/-- An ask is answered, then a stop from before the ask is seen: it holds the attempt once more over
the time of the ask. -/
def backdatedStop : List Sight :=
  [⟨some ⟨10000000, "proceed?"⟩, none, 10000000⟩, ⟨none, none, 20000000⟩,
    ⟨none, some ⟨5000000, false⟩, 25000000⟩, ⟨none, none, 30000000⟩]

/-- The credit is then more than the holds cover, and more than all the time since the start. -/
theorem backdated_stop_credited_twice :
    let w := Watched.run ⟨startedAttempt, []⟩ backdatedStop
    let now := lastNow startedAttempt.startedAt backdatedStop
    Timely startedAttempt.startedAt backdatedStop ∧
    w.attempt.askedMs = 35 ∧ now - startedAttempt.startedAt = 30000000 ∧
    (covered w.holds).card < 1000000 * w.attempt.askedMs := by
  intro w now
  have holds : w.holds = [(10000000, 20000000), (5000000, 30000000)] := by decide
  have credit : w.attempt.askedMs = 35 := by decide
  refine ⟨by simp [Timely, backdatedStop, startedAttempt], credit, by decide, ?_⟩
  have within : ∀ h ∈ w.holds, (0 : Int) ≤ h.1 ∧ h.2 ≤ 30000000 := by
    decide
  have le := card_covered_le_of_within within
  omega

/-- Two asks, each answered, the second one after the first. -/
theorem hold_credits_once_two_asks :
    let os : List Sight := [⟨some ⟨10000000, "first?"⟩, none, 12000000⟩, ⟨none, none, 20000000⟩,
      ⟨some ⟨22000000, "second?"⟩, none, 25000000⟩, ⟨none, none, 30000000⟩]
    let w := Watched.run ⟨startedAttempt, []⟩ os
    w.attempt.askedMs = 18 ∧ CountedOnce (w.holds ++ w.opened 30000000) := by
  intro os w
  have clock : Timely startedAttempt.startedAt os := by simp [os, Timely, startedAttempt]
  have forward : Watched.RunsForward ⟨startedAttempt, []⟩ os := by
    simp [os, Watched.RunsForward, Watched.Forward, Watched.observe, LiveAttempt.hold, earlier,
      startedAttempt, Sight.evidence]
  obtain ⟨-, once, -⟩ := hold_credits_once_iff (a := startedAttempt) rfl rfl rfl clock
  exact ⟨by decide, once.mpr forward⟩

end Rimz.Workflow
