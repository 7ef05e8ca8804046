import Rimz.Ids

/-!
# Active time

`store/active_time.rs`: how long a session has worked, by its record under `active-time/`. A
progress opens or advances a span, a pulse advances an open one, a stop closes it. What a call
credits is capped by its grace and is handed to the caller once, at a stop or after ten minutes of
progress. Each call runs under the lock of the record, whose file is absent before the first
progress.
-/

namespace Rimz.ActiveTime

structure ReleaseWatermark where
  creditedMs : Nat
  at_ : Timestamp

structure ActiveTimeRecord where
  creditedMs : Nat
  lastProgress : Timestamp
  active : Bool
  release : Option ReleaseWatermark

def releaseInterval : Duration := 600 * 1000000000

/-- `Timestamp::as_millisecond`: whole milliseconds, towards the epoch. -/
def asMillisecond (t : Timestamp) : Int := t.tdiv 1000000

def boundedElapsedMs (later earlier : Timestamp) (graceSecs : Nat) : Nat :=
  if later ≤ earlier then 0
  else min (asMillisecond later - asMillisecond earlier).toNat (graceSecs * 1000)

def updateRecord (file : Option ActiveTimeRecord) (at_ : Timestamp) (releaseOnStop : Bool)
    (update : ActiveTimeRecord → Bool → ActiveTimeRecord × Bool) :
    Option ActiveTimeRecord × Bool × Nat :=
  let record := file.getD ⟨0, at_, false, some ⟨0, at_⟩⟩
  let initialised := record.release.isNone
  let watermark := record.release.getD ⟨record.creditedMs, at_⟩
  let fresh := decide (record.lastProgress < at_)
  let (record, changed) := update { record with release := some watermark } file.isSome
  let released := if releaseOnStop || (fresh && releaseInterval ≤ at_ - watermark.at_) then
      record.creditedMs - watermark.creditedMs
    else 0
  let record := if 0 < released then { record with release := some ⟨record.creditedMs, at_⟩ }
    else record
  if changed || initialised || 0 < released then (some record, true, released)
  else (file, false, released)

section Calls
variable (file : Option ActiveTimeRecord) (at_ : Timestamp) (graceSecs : Nat)

def recordProgress : Option ActiveTimeRecord × Nat :=
  let result := updateRecord file at_ false fun record existed =>
    if !existed then ({ record with active := true }, true)
    else if at_ ≤ record.lastProgress then (record, false)
    else
      let record := if record.active then
          { record with
            creditedMs := record.creditedMs + boundedElapsedMs at_ record.lastProgress graceSecs }
        else { record with active := true }
      ({ record with lastProgress := at_ }, true)
  (result.1, result.2.2)

def recordPulse : Option ActiveTimeRecord × Bool × Nat :=
  updateRecord file at_ false fun record existed =>
    if !existed || !record.active || at_ ≤ record.lastProgress then (record, false)
    else ({ record with
      creditedMs := record.creditedMs + boundedElapsedMs at_ record.lastProgress graceSecs
      lastProgress := at_ }, true)

def recordStop : Option ActiveTimeRecord × Nat :=
  let result := updateRecord file at_ true fun record existed =>
    if !existed || !record.active then (record, false)
    else ({ record with
      creditedMs := record.creditedMs + boundedElapsedMs at_ record.lastProgress graceSecs
      active := false
      lastProgress := max record.lastProgress at_ }, true)
  (result.1, result.2.2)

end Calls

inductive Signal where
  | progress
  | pulse
  | stop
  deriving DecidableEq

structure Call where
  signal : Signal
  at_ : Timestamp
  graceSecs : Nat

/-- The file a call leaves, and the milliseconds it releases. -/
def Call.apply (c : Call) (file : Option ActiveTimeRecord) : Option ActiveTimeRecord × Nat :=
  match c.signal with
  | .progress => recordProgress file c.at_ c.graceSecs
  | .pulse =>
    let result := recordPulse file c.at_ c.graceSecs
    (result.1, result.2.2)
  | .stop => recordStop file c.at_ c.graceSecs

/-- A session's record, with what its calls have released. -/
structure Session where
  file : Option ActiveTimeRecord := none
  released : List Nat := []

namespace Session

def step (s : Session) (c : Call) : Session where
  file := (c.apply s.file).1
  released := s.released ++ [(c.apply s.file).2]

def run (calls : List Call) : Session := calls.foldl step {}

def creditedMs (s : Session) : Nat := (s.file.map ActiveTimeRecord.creditedMs).getD 0

/-- The credit that no call has returned yet. -/
def unreleased (s : Session) : Nat :=
  s.creditedMs - ((s.file.bind ActiveTimeRecord.release).map ReleaseWatermark.creditedMs).getD 0

/-- A progress that opens or advances the span. -/
def Accepts (s : Session) (c : Call) : Prop :=
  c.signal = .progress ∧ ∀ r, s.file = some r → r.lastProgress < c.at_

end Session

variable {c : Call} {r q : ActiveTimeRecord} {w : ReleaseWatermark} {s : Session} {calls : List Call}

lemma asMillisecond_mono {a b : Timestamp} (h : a ≤ b) : asMillisecond a ≤ asMillisecond b :=
  Int.tdiv_le_tdiv (by decide) h

lemma boundedElapsedMs_le (later earlier : Timestamp) (graceSecs : Nat) :
    (boundedElapsedMs later earlier graceSecs : Int)
      ≤ asMillisecond (max earlier later) - asMillisecond earlier := by
  have := asMillisecond_mono (Int.le_max_left earlier later)
  rw [boundedElapsedMs]
  split
  · omega
  · next h =>
    rw [Int.max_eq_right (Int.le_of_lt (Int.not_le.mp h))] at this ⊢
    omega

/-- What a call does to a record: it credits at most the time since the last progress, and nothing
when the record is closed. -/
structure Moves (c : Call) (r q : ActiveTimeRecord) : Prop where
  grows : r.creditedMs ≤ q.creditedMs
  within : (q.creditedMs : Int) + asMillisecond r.lastProgress ≤ r.creditedMs +
    asMillisecond q.lastProgress
  later : r.lastProgress ≤ q.lastProgress ∧ q.lastProgress ≤ max r.lastProgress c.at_
  opens : c.signal = .progress → r.lastProgress < c.at_ → q.lastProgress = c.at_
  stops : c.signal = .stop → q.active = false
  closed : r.active = false → q.creditedMs = r.creditedMs
    ∧ (¬(c.signal = .progress ∧ r.lastProgress < c.at_) → q.active = false)

/-- The watermark passes what the call returns, and at a stop all credit. -/
def Releases (c : Call) (w : ReleaseWatermark) (q : ActiveTimeRecord) (released : Nat) : Prop :=
  ∃ w', q.release = some w' ∧ w'.creditedMs = w.creditedMs + released ∧ w'.creditedMs ≤ q.creditedMs
    ∧ (c.signal = .stop → w'.creditedMs = q.creditedMs)

lemma updateRecord_some (hw : r.release = some w) (le : w.creditedMs ≤ r.creditedMs) {onStop update}
    (kept : (update r true).2 = false → (update r true).1 = r)
    (same : (update r true).1.release = r.release)
    (moves : Moves c r (update r true).1) (stops : c.signal = .stop → onStop = true) :
    ∃ q, (updateRecord (some r) c.at_ onStop update).1 = some q ∧ Moves c r q
      ∧ Releases c w q (updateRecord (some r) c.at_ onStop update).2.2 := by
  have self : { r with release := some w } = r := by rw [← hw]
  have grown := moves.grows
  simp only [updateRecord, getD_some, hw, Option.isNone_some, self, Option.isSome_some,
    Bool.or_false]
  generalize update r true = updated at *
  obtain ⟨q, changed⟩ := updated
  generalize hreleased : (if onStop || _ then q.creditedMs - w.creditedMs else 0) = released
  have some_or_none : released = 0 ∨ released = q.creditedMs - w.creditedMs := by
    rw [← hreleased]
    split <;> simp
  have all : c.signal = .stop → released = q.creditedMs - w.creditedMs := by
    intro stop
    rw [← hreleased, stops stop]
    rfl
  dsimp only at *
  by_cases pos : 0 < released
  · simp only [pos, decide_true, Bool.or_true, if_true]
    refine ⟨_, rfl, { moves with }, _, rfl, ?_, Nat.le_refl _, fun _ => rfl⟩
    dsimp only
    omega
  · have zero : released = 0 := by omega
    refine ⟨q, ?_, moves, w, same.trans hw, by cases changed <;> simp [zero], by omega, fun stop => ?_⟩
    · cases changed with
      | true => simp [zero]
      | false => simp [zero, kept rfl]
    · have := all stop
      omega

lemma apply_some (hw : r.release = some w) (le : w.creditedMs ≤ r.creditedMs) :
    ∃ q, (c.apply (some r)).1 = some q ∧ Moves c r q ∧ Releases c w q (c.apply (some r)).2 := by
  obtain ⟨signal, at_, graceSecs⟩ := c
  have elapsed := boundedElapsedMs_le at_ r.lastProgress graceSecs
  cases signal with
  | progress =>
    refine updateRecord_some (c := ⟨.progress, at_, graceSecs⟩) hw le ?_ ?_ ?_ nofun
    · grind
    · grind
    · have := @asMillisecond_mono r.lastProgress at_
      constructor <;> grind
  | pulse =>
    refine updateRecord_some (c := ⟨.pulse, at_, graceSecs⟩) hw le ?_ ?_ ?_ nofun
    · grind
    · grind
    · constructor <;> grind
  | stop =>
    refine updateRecord_some (c := ⟨.stop, at_, graceSecs⟩) hw le ?_ ?_ ?_ (fun _ => rfl)
    · grind
    · grind
    · constructor <;> grind

lemma apply_none : c.apply none = ((if c.signal = .progress then
    some ⟨0, c.at_, true, some ⟨0, c.at_⟩⟩ else none), 0) := by
  obtain ⟨signal, at_, graceSecs⟩ := c
  cases signal <;> simp [Call.apply, recordProgress, recordPulse, recordStop, updateRecord]

namespace Session

/-- What was released so far is what the watermark says. -/
def Sound (s : Session) : Prop :=
  (s.file = none → s.released.sum = 0) ∧ ∀ r, s.file = some r →
    ∃ w, r.release = some w ∧ s.released.sum = w.creditedMs ∧ w.creditedMs ≤ r.creditedMs

lemma step_fresh (h : s.file = none) (c : Call) : (s.step c).released.sum = s.released.sum
    ∧ (s.step c).file = if c.signal = .progress then some ⟨0, c.at_, true, some ⟨0, c.at_⟩⟩
    else none := by
  simp [step, h, apply_none]

lemma Sound.record (h : s.Sound) (hr : s.file = some r) (c : Call) : ∃ q, (s.step c).file = some q
    ∧ Moves c r q ∧ Releases c ⟨s.released.sum, 0⟩ q (c.apply s.file).2 := by
  obtain ⟨w, hw, sum, le⟩ := h.2 r hr
  obtain ⟨q, after, moves, released⟩ := apply_some (c := c) hw le
  refine ⟨q, by rw [Session.step, hr, after], moves, ?_⟩
  rw [Releases, sum, hr]
  exact released

lemma Sound.step (h : s.Sound) (c : Call) : (s.step c).Sound := by
  cases hr : s.file with
  | none =>
    obtain ⟨released, file⟩ := step_fresh hr c
    refine ⟨fun _ => released.trans (h.1 hr), fun q hq => ?_⟩
    rw [file] at hq
    split at hq <;> cases hq
    exact ⟨_, rfl, released.trans (h.1 hr), Nat.le_refl _⟩
  | some r =>
    obtain ⟨q, file, -, w, hw, passed, le, -⟩ := h.record hr c
    refine ⟨fun none => (by cases file.symm.trans none), fun q' hq => ?_⟩
    cases file.symm.trans hq
    refine ⟨w, hw, ?_, le⟩
    rw [passed, Session.step, List.sum_append]
    simp

lemma Sound.grows (h : s.Sound) (c : Call) : s.creditedMs ≤ (s.step c).creditedMs := by
  cases hr : s.file with
  | none => simp [creditedMs, hr]
  | some r =>
    obtain ⟨q, file, moves, -⟩ := h.record hr c
    simpa [creditedMs, hr, file] using moves.grows

lemma Sound.foldl (h : s.Sound) (calls : List Call) : (calls.foldl Session.step s).Sound := by
  induction calls generalizing s with
  | nil => exact h
  | cons c calls ih => exact ih (h.step c)

/-- Calls credit at most the time since the last progress they find. -/
lemma Sound.within (h : s.Sound) (hr : s.file = some r) {latest} (last : r.lastProgress ≤ latest)
    (calls : List Call) (seen : ∀ c ∈ calls, c.at_ ≤ latest) :
    ((calls.foldl Session.step s).creditedMs : Int)
      ≤ r.creditedMs + (asMillisecond latest - asMillisecond r.lastProgress) := by
  induction calls generalizing s r with
  | nil =>
    have := asMillisecond_mono last
    simp only [List.foldl_nil, creditedMs, hr, map_some, getD_some]
    omega
  | cons c calls ih =>
    obtain ⟨q, file, moves, -⟩ := h.record hr c
    have now := seen c mem_cons_self
    have later := moves.later
    have rest := ih (h.step c) file (Int.le_trans later.2 (Int.max_le.mpr ⟨last, now⟩))
      fun d mem => seen d (mem_cons_of_mem _ mem)
    have := moves.within
    rw [foldl_cons]
    omega

/-- A session without a record starts with its first progress. -/
lemma Sound.span (h : s.Sound) (hr : s.file = none) {first latest} (span : first ≤ latest)
    (calls : List Call) (seen : ∀ c ∈ calls, first ≤ c.at_ ∧ c.at_ ≤ latest) :
    ((calls.foldl Session.step s).creditedMs : Int) ≤
    asMillisecond latest - asMillisecond first := by
  induction calls generalizing s with
  | nil =>
    have := asMillisecond_mono span
    simp only [List.foldl_nil, creditedMs, hr, map_none, Option.getD_none]
    omega
  | cons c calls ih =>
    have file := (step_fresh hr c).2
    have rest := fun d mem => seen d (mem_cons_of_mem c mem)
    split at file
    · have now := seen c mem_cons_self
      have := (h.step c).within file now.2 calls fun d mem => (rest d mem).2
      have := asMillisecond_mono now.1
      rw [foldl_cons]
      dsimp only at *
      omega
    · exact ih (h.step c) file rest

/-- A session that is not at work: it has no record, or a closed one. -/
def Idle (s : Session) : Prop := ∀ r, s.file = some r → r.active = false

lemma Sound.stop (h : s.Sound) (hc : c.signal = .stop) :
    (s.step c).unreleased = 0 ∧ (s.step c).Idle := by
  cases hr : s.file with
  | none =>
    have file := (step_fresh hr c).2
    rw [hc, if_neg nofun] at file
    simp [unreleased, creditedMs, Idle, file]
  | some r =>
    obtain ⟨q, file, moves, w, hw, -, -, all⟩ := h.record hr c
    simp [unreleased, creditedMs, Idle, file, hw, all hc, moves.stops hc]

/-- A call that finds the session idle credits nothing; it opens the session or leaves it idle. -/
lemma Sound.idle (h : s.Sound) (idle : s.Idle) (c : Call) : (s.step c).creditedMs = s.creditedMs
    ∧ (¬s.Accepts c → (s.step c).Idle)
    ∧ (s.Accepts c → ∃ r, (s.step c).file = some r ∧ r.lastProgress = c.at_) := by
  cases hr : s.file with
  | none =>
    have file := (step_fresh hr c).2
    have accepts : s.Accepts c ↔ c.signal = .progress := by simp [Accepts, hr]
    rw [accepts]
    by_cases hc : c.signal = .progress <;> simp [creditedMs, hr, file, hc, Idle]
  | some r =>
    obtain ⟨q, file, moves, -⟩ := h.record hr c
    obtain ⟨credited, stays⟩ := moves.closed (idle r hr)
    have accepts : s.Accepts c ↔ c.signal = .progress ∧ r.lastProgress < c.at_ := by simp [Accepts, hr]
    rw [accepts]
    refine ⟨by simp [creditedMs, hr, file, credited], fun ignored => ?_, fun accepted =>
      ⟨q, file, moves.opens accepted.1 accepted.2⟩⟩
    simp [Idle, file, stays ignored]

lemma Sound.idles (h : s.Sound) (idle : s.Idle) (calls : List Call)
    (ignored : ∀ earlier c later, calls = earlier ++ c :: later → ¬(earlier.foldl Session.step s).Accepts c) :
    (calls.foldl Session.step s).Idle ∧ (calls.foldl Session.step s).creditedMs = s.creditedMs := by
  induction calls generalizing s with
  | nil => exact ⟨idle, rfl⟩
  | cons c calls ih =>
    obtain ⟨credited, stays, -⟩ := h.idle idle c
    rw [← credited]
    exact ih (h.step c) (stays (ignored [] c calls rfl)) fun earlier d later e =>
      ignored (c :: earlier) d later (e ▸ rfl)

end Session

/-- In every sequence of calls the credit of a session never decreases, is within the whole
milliseconds between the earliest and the latest instant, was released or is still to be, and is all
released by a stop. From a stop to the next accepted progress nothing is credited, and after it at
most the time since. -/
theorem active_time_counted_once (calls : List Call) :
    (∀ c, (Session.run calls).creditedMs ≤ (Session.run (calls ++ [c])).creditedMs)
      ∧ (∀ first latest, first ≤ latest → (∀ c ∈ calls, first ≤ c.at_ ∧ c.at_ ≤ latest) →
        ((Session.run calls).creditedMs : Int) ≤ asMillisecond latest - asMillisecond first)
      ∧ (Session.run calls).released.sum + (Session.run calls).unreleased = (Session.run calls).creditedMs
      ∧ (∀ c, c.signal = .stop → (Session.run (calls ++ [c])).unreleased = 0)
      ∧ ∀ before stop between next after latest, calls = before ++ stop :: between ++
        next :: after → stop.signal = .stop →
        (∀ earlier c later, between = earlier ++ c :: later →
          ¬(Session.run (before ++ stop :: earlier)).Accepts c) →
        (Session.run (before ++ stop :: between)).Accepts next → (∀ c ∈ next :: after, c.at_ ≤ latest) →
        (Session.run (before ++ stop :: between ++ [next])).creditedMs
            = (Session.run (before ++ [stop])).creditedMs
          ∧ ((Session.run calls).creditedMs : Int) ≤ (Session.run (before ++ [stop])).creditedMs
            + (asMillisecond latest - asMillisecond next.at_) := by
  have sound (calls : List Call) : (Session.run calls).Sound :=
    Session.Sound.foldl ⟨fun _ => rfl, fun _ h => by cases h⟩ calls
  have run_append (a b : List Call) : Session.run (a ++ b) = b.foldl Session.step (Session.run a) :=
    foldl_append
  refine ⟨fun c => ?_, fun first latest span seen => ?_, ?_, fun c hc => ?_, ?_⟩
  · rw [run_append]
    exact (sound calls).grows c
  · exact Session.Sound.span (sound []) rfl span calls seen
  · cases hr : (Session.run calls).file with
    | none => simp [Session.unreleased, Session.creditedMs, hr, (sound calls).1 hr]
    | some r =>
      obtain ⟨w, hw, sum, le⟩ := (sound calls).2 r hr
      simpa [Session.unreleased, Session.creditedMs, hr, hw, sum] using Nat.add_sub_cancel' le
  · rw [run_append]
    exact ((sound calls).stop hc).1
  · rintro before stop between next after latest rfl hstop ignored accepted seen
    have stopped := (sound before).stop hstop
    have closed := (sound (before ++ [stop])).idles (run_append before [stop] ▸ stopped.2) between
      fun earlier c later e => by simpa [run_append] using ignored earlier c later e
    rw [← run_append, append_assoc, singleton_append] at closed
    obtain ⟨credited, -, opened⟩ := (sound _).idle closed.1 next
    obtain ⟨r, hr, last⟩ := opened accepted
    have total : (Session.run (before ++ stop :: between ++ [next])).creditedMs
        = (Session.run (before ++ [stop])).creditedMs := by
      rw [run_append]
      exact credited.trans closed.2
    refine ⟨total, ?_⟩
    have later := ((sound _).step next).within hr (last ▸ seen next mem_cons_self) after
      fun c mem => seen c (mem_cons_of_mem _ mem)
    have same : r.creditedMs = (Session.run (before ++ [stop])).creditedMs := by
      simpa [Session.creditedMs, hr] using credited.trans closed.2
    rw [run_append, foldl_cons, ← same, ← last]
    exact later

/-- Instants closer than a millisecond may be credited one: the span is that of whole
milliseconds. -/
theorem credit_exceeds_exact_span :
    ∃ calls : List Call, (∀ c ∈ calls, 900000 ≤ c.at_ ∧ c.at_ ≤ 1100000)
    ∧ ¬(Session.run calls).creditedMs * 1000000 ≤ 1100000 - 900000 :=
  ⟨[⟨.progress, 900000, 180⟩, ⟨.progress, 1100000, 180⟩], by decide, by decide⟩

end Rimz.ActiveTime
